import Herald.Proofs.Live.Expiry

/-!
The farewell to a replaced connection is the last message on its queue, unless a broadcast is in flight
that copied the entries before the connection was replaced.
-/

namespace Herald.Live

variable {key : QueueKey} {traffic : Traffic} {index : Nat}

theorem Queue.hasRoom_take_push {queue : Queue} (hroom : queue.hasRoom = true)
    (message : Message) : (queue.push message).take.2.hasRoom = true := by
  rw [push, if_pos hroom, take_snd]
  rw [hasRoom, Bool.and_eq_true, decide_eq_true_eq, decide_eq_true_eq] at hroom ⊢
  refine ⟨hroom.1, ?_⟩
  rw [List.length_tail, List.length_append]
  exact hroom.2

namespace Traffic

namespace Supersedes

theorem known (hsupersedes : traffic.Supersedes index key)
    (hdistinct : traffic.registry.Distinct) : key < traffic.registry.queues.length := by
  obtain ⟨user, capacity, _, hkey, _⟩ := hsupersedes
  exact hdistinct.covered key (Registry.mem_allKeys_of_mem_keyOf hkey)

theorem retired (hsupersedes : traffic.Supersedes index key)
    (hdistinct : traffic.registry.Distinct) :
    (traffic.turn (.call index)).registry.Retired key := by
  obtain ⟨user, capacity, hcall, hkey, _⟩ := hsupersedes
  rw [turn_call hcall]
  exact hdistinct.retired_enroll hkey capacity

theorem queued_farewell (hsupersedes : traffic.Supersedes index key)
    (hdistinct : traffic.registry.Distinct) :
    traffic.queued key [.call index] = [.sessionExpired] := by
  have hknown := hsupersedes.known hdistinct
  obtain ⟨user, capacity, hcall, hkey, hroom⟩ := hsupersedes
  rw [queued, queued, List.append_nil, turn_call hcall, Call.step, Registry.gained_enroll hknown,
    if_pos ⟨hkey, hroom⟩]

theorem copies_turn (hsupersedes : traffic.Supersedes index key) :
    ((traffic.turn (.call index)).copies key).Perm (traffic.copies key) := by
  obtain ⟨user, capacity, hcall, _⟩ := hsupersedes
  obtain ⟨others, hbefore, hafter⟩ := copies_perm hcall
    (traffic.registry.enroll user capacity) .finished key
  rw [turn_call hcall]
  exact hafter.trans hbefore.symm

/-- Once its reader has taken a message, the replaced queue has room again. -/
theorem hasRoom_receive (hsupersedes : traffic.Supersedes index key)
    (hdistinct : traffic.registry.Distinct) :
    ((traffic.turn (.call index)).turn (.receive key)).registry.hasRoom key = true := by
  have hknown := hsupersedes.known hdistinct
  obtain ⟨user, capacity, hcall, hkey, hroom⟩ := hsupersedes
  obtain ⟨queue, hqueue⟩ : ∃ queue, traffic.registry.queue? key = some queue :=
    ⟨_, List.getElem?_eq_getElem hknown⟩
  rw [Registry.hasRoom_of_queue? hqueue] at hroom
  have hafter : ((traffic.turn (.call index)).turn (.receive key)).registry.queue? key =
      some (queue.push .sessionExpired).take.2 := by
    rw [turn_call hcall]
    refine (Registry.queue?_take ..).trans ((if_pos rfl).trans ?_)
    rw [Call.step, Registry.queue?_enroll hknown, if_pos hkey, hqueue]
    rfl
  rw [Registry.hasRoom_of_queue? hafter]
  exact Queue.hasRoom_take_push hroom _

end Supersedes

/--
A registration that replaces a connection queues the farewell. What any turns afterwards queue on the
replaced connection are messages of broadcasts that copied the entries before, each on a copy that
is still held; and some turns do queue such a message, unless there is no such copy.
-/
theorem queued_after_farewell (calls : List Call) (turns : List Turn) (index : Nat)
    (key : QueueKey) (hsupersedes : ((start calls).run turns).Supersedes index key) :
    let before := (start calls).run turns
    let after := before.turn (.call index)
    before.queued key [.call index] = [.sessionExpired] ∧
      (∀ later, (after.queued key later).Subperm (before.copies key)) ∧
      ((∃ later, after.queued key later ≠ []) ↔ before.copies key ≠ []) := by
  intro before after
  have hdistinct : before.registry.Distinct := distinct_run (distinct_start calls) turns
  have hcopies : (after.copies key).Perm (before.copies key) := hsupersedes.copies_turn
  have hbound : ∀ later, (after.queued key later).Subperm (before.copies key) := fun later =>
    hcopies.subperm_left.mp (queued_subperm (hsupersedes.retired hdistinct) later)
  refine ⟨hsupersedes.queued_farewell hdistinct, hbound, ?_, ?_⟩
  · rintro ⟨later, hlater⟩ hnone
    have hnil := hbound later
    rw [hnone, List.subperm_nil] at hnil
    exact hlater hnil
  · intro hheld
    apply exists_queued_of_turn
    refine exists_queued_of_copies (hsupersedes.hasRoom_receive hdistinct) ?_
    intro hnone
    have hnil : List.Perm [] (before.copies key) := hnone ▸ hcopies
    exact hheld hnil.nil_eq.symm

/-- A broadcast that copied the entries first pushes its message behind the farewell. -/
theorem queued_after_farewell_of_broadcast :
    let user : Identifier := .ofNat 7
    let calls : List Call := [.register user 8, .broadcast .heartbeat .inserted, .register user 8]
    let before := (start calls).run [.call 0, .call 1]
    before.Supersedes 2 0 ∧ before.copies 0 = [.heartbeat] ∧
      ∃ later, (before.turn (.call 2)).queued 0 later ≠ [] := by
  intro user calls before
  have hsupersedes : before.Supersedes 2 0 := ⟨user, 8, rfl, by decide, by decide⟩
  have hcopies : before.copies 0 = [.heartbeat] := by decide
  have hlater := (queued_after_farewell calls [.call 0, .call 1] 2 0 hsupersedes).2.2.mpr
    (hcopies ▸ List.cons_ne_nil _ _)
  exact ⟨hsupersedes, hcopies, hlater⟩

/-- The farewell need not be the last message on a queue. -/
theorem farewell_not_last :
    ¬∀ (calls : List Call) (turns later : List Turn) (index : Nat) (key : QueueKey),
      ((start calls).run turns).Supersedes index key →
        (((start calls).run turns).turn (.call index)).queued key later = [] := by
  intro hlast
  let user : Identifier := .ofNat 7
  have hnone := hlast [.register user 8, .broadcast .heartbeat .inserted, .register user 8]
    [.call 0, .call 1] [.call 1] 2 0 ⟨user, 8, rfl, by decide, by decide⟩
  revert hnone
  decide

end Traffic

end Herald.Live
