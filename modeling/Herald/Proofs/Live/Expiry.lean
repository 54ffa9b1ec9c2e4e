import Herald.Proofs.Live.Traffic
import Mathlib.Data.List.Perm.Subperm

/-!
What follows the farewell to a connection that was replaced. The registry forgets the connection with
the farewell, so that no call finds it afterwards; but a broadcast that copied the entries before then
still holds the connection, and pushes its message behind the farewell.
-/

namespace Herald.Live

variable {registry : Registry} {user : Identifier} {connection : Connection} {key : QueueKey}
  {call : Call} {traffic : Traffic} {message : Message} {index : Nat}

/-! One step of a call. -/

namespace Call

theorem copies_push_cons (key : QueueKey) (message : Message) (user : Identifier)
    (connection : Connection) (copies : List (Identifier × Connection)) :
    (push message ((user, connection) :: copies)).copies key =
      (if connection.queue = key then [message] else []) ++ (push message copies).copies key := by
  rw [Call.copies, List.filter_cons]
  by_cases hkey : connection.queue = key
  · rw [if_pos (decide_eq_true hkey), if_pos hkey]
    rfl
  · rw [if_neg (by rwa [decide_eq_true_eq]), if_neg hkey]
    rfl

theorem gained_offer (registry : Registry) (key other : QueueKey) (message : Message) :
    Registry.gained other registry (registry.offer key message).1 =
      if key = other ∧ registry.hasRoom other = true then [message] else [] :=
  Registry.gained_of_append (Registry.waitingOn_changeQueue_push ..)

/-- Only registrations add entries. -/
theorem shrinks_step (registry : Registry) (call : Call) :
    (∃ user capacity, call = .register user capacity) ∨
      Registry.Shrinks registry (call.step registry).1 := by
  cases call with
  | register user capacity => exact .inl ⟨user, capacity, rfl⟩
  | unregister user id => exact .inr (Registry.shrinks_unregister ..)
  | send user message =>
      right
      rw [step]
      cases registry.connection? user with
      | none => exact .refl registry
      | some connection => exact Registry.shrinks_changeQueue ..
  | broadcast message order => exact .inr (.refl registry)
  | push message copies =>
      right
      cases copies with
      | nil => exact .refl registry
      | cons entry copies => exact Registry.shrinks_changeQueue ..
  | settle user id taken message copies => exact .inr (Registry.shrinks_settle ..)
  | finished => exact .inr (.refl registry)

theorem distinct_step (hdistinct : registry.Distinct) (call : Call) :
    (call.step registry).1.Distinct := by
  rcases shrinks_step registry call with ⟨user, capacity, rfl⟩ | hshrinks
  · exact hdistinct.enroll user capacity
  · exact hshrinks.distinct hdistinct

theorem retired_step (hretired : registry.Retired key) (call : Call) :
    (call.step registry).1.Retired key := by
  rcases shrinks_step registry call with ⟨user, capacity, rfl⟩ | hshrinks
  · exact hretired.enroll user capacity
  · exact hshrinks.retired hretired

theorem copies_broadcast_of_retired (hretired : registry.Retired key) (message : Message)
    (order : Order) : (push message (order.arrange registry.entries)).copies key = [] := by
  have hnone : (order.arrange registry.entries).filter (·.2.queue = key) = [] := by
    rw [List.filter_eq_nil_iff]
    intro entry hentry hkey
    have hregistered := (order.perm registry.entries).mem_iff.mp hentry
    exact hretired.not_mem (List.mem_map.mpr ⟨entry, hregistered, of_decide_eq_true hkey⟩)
  rw [copies, hnone, List.map_nil]

theorem gained_offer_sublist (registry : Registry) (key other : QueueKey) (message : Message) :
    (Registry.gained other registry (registry.offer key message).1).Sublist
      (if key = other then [message] else []) := by
  rw [gained_offer]
  by_cases hkey : key = other
  · rw [if_pos hkey]
    split
    · exact List.Sublist.refl _
    · exact List.nil_sublist _
  · rw [if_neg hkey, if_neg fun hboth => hkey hboth.1]

theorem gained_append_sublist {after : Registry} {messages : List Message}
    (hsame : after.waitingOn key = registry.waitingOn key) :
    (Registry.gained key registry after ++ messages).Sublist messages := by
  rw [Registry.gained_of_waitingOn_eq hsame]
  exact List.Sublist.refl _

theorem gained_send_of_retired (hretired : registry.Retired key) (user : Identifier)
    (message : Message) :
    Registry.gained key registry ((send user message).step registry).1 = [] ∧
      ((send user message).step registry).2.copies key = [] := by
  rw [step]
  cases hconnection : registry.connection? user with
  | none => exact ⟨Registry.gained_of_waitingOn_eq rfl, rfl⟩
  | some connection =>
      have hkey : connection.queue ≠ key := by
        rintro rfl
        exact hretired.not_mem
          (List.mem_map_of_mem (Registry.mem_entries_of_connection? hconnection))
      exact ⟨(gained_offer ..).trans (if_neg fun hboth => hkey hboth.1), rfl⟩

/-- On a queue without an entry, a call queues no more than it holds copies for. -/
theorem gained_step (hretired : registry.Retired key) (call : Call) :
    (Registry.gained key registry (call.step registry).1 ++
      (call.step registry).2.copies key).Sublist (call.copies key) := by
  cases call with
  | register user capacity =>
      have hkey : ¬(key ∈ registry.keyOf user ∧ registry.hasRoom key = true) :=
        fun hboth => hretired.not_mem (Registry.mem_allKeys_of_mem_keyOf hboth.1)
      rw [step, Registry.gained_enroll hretired.known, if_neg hkey]
      exact List.Sublist.refl _
  | unregister user id => exact gained_append_sublist (Registry.waitingOn_unregister ..)
  | send user message =>
      obtain ⟨hgained, hcopies⟩ := gained_send_of_retired hretired user message
      rw [hgained, hcopies]
      exact List.nil_sublist _
  | broadcast message order =>
      rw [step, copies_broadcast_of_retired hretired]
      exact gained_append_sublist rfl
  | push message copies =>
      cases copies with
      | nil => exact gained_append_sublist rfl
      | cons entry copies =>
          obtain ⟨user, connection⟩ := entry
          rw [copies_push_cons]
          exact (gained_offer_sublist ..).append (List.Sublist.refl _)
  | settle user id taken message copies =>
      exact gained_append_sublist (Registry.waitingOn_congr (Registry.queue?_settle ..))
  | finished => exact gained_append_sublist rfl

end Call

/-! Runs of calls. -/

namespace Traffic

theorem turn_call (hcall : traffic.calls[index]? = some call) :
    traffic.turn (.call index) =
      ⟨(call.step traffic.registry).1, traffic.calls.set index (call.step traffic.registry).2⟩ := by
  rw [turn, hcall]

theorem turn_of_none (hnone : traffic.calls[index]? = none) :
    traffic.turn (.call index) = traffic := by
  rw [turn, hnone]

theorem distinct_turn (hdistinct : traffic.registry.Distinct) (turn : Turn) :
    (traffic.turn turn).registry.Distinct := by
  cases turn with
  | receive key => exact (Registry.shrinks_take ..).distinct hdistinct
  | call index =>
      cases hcall : traffic.calls[index]? with
      | none =>
          rw [turn_of_none hcall]
          exact hdistinct
      | some call =>
          rw [turn_call hcall]
          exact Call.distinct_step hdistinct call

theorem distinct_run (hdistinct : traffic.registry.Distinct) (turns : List Turn) :
    (traffic.run turns).registry.Distinct := by
  induction turns generalizing traffic with
  | nil => exact hdistinct
  | cons turn rest ih => exact ih (distinct_turn hdistinct turn)

theorem distinct_start (calls : List Call) : (start calls).registry.Distinct where
  keys := List.nodup_nil
  covered _ hkey := absurd hkey List.not_mem_nil

theorem retired_turn (hretired : traffic.registry.Retired key) (turn : Turn) :
    (traffic.turn turn).registry.Retired key := by
  cases turn with
  | receive key => exact (Registry.shrinks_take ..).retired hretired
  | call index =>
      cases hcall : traffic.calls[index]? with
      | none =>
          rw [turn_of_none hcall]
          exact hretired
      | some call =>
          rw [turn_call hcall]
          exact Call.retired_step hretired call

/-- A step of one call leaves the copies that the other calls hold. -/
theorem copies_perm (hcall : traffic.calls[index]? = some call) (registry : Registry)
    (rest : Call) (key : QueueKey) :
    ∃ others, (traffic.copies key).Perm (call.copies key ++ others) ∧
      (copies key ⟨registry, traffic.calls.set index rest⟩).Perm (rest.copies key ++ others) := by
  obtain ⟨hindex, hcall⟩ := List.getElem?_eq_some_iff.mp hcall
  obtain ⟨front, back, hcalls, _, hset⟩ : ∃ front back,
      traffic.calls = front ++ traffic.calls[index] :: back ∧ front.length = index ∧
        traffic.calls.set index rest = front ++ rest :: back := List.exists_of_set hindex
  rw [hcall] at hcalls
  refine ⟨front.flatMap (Call.copies key) ++ back.flatMap (Call.copies key), ?_, ?_⟩
  · rw [copies, hcalls, List.flatMap_append, List.flatMap_cons]
    exact List.perm_append_comm_assoc ..
  · rw [copies, hset, List.flatMap_append, List.flatMap_cons]
    exact List.perm_append_comm_assoc ..

theorem gained_turn (hretired : traffic.registry.Retired key) (turn : Turn) :
    (Registry.gained key traffic.registry (traffic.turn turn).registry ++
      (traffic.turn turn).copies key).Subperm (traffic.copies key) := by
  cases turn with
  | receive other =>
      have hgained : Registry.gained key traffic.registry
          (traffic.turn (.receive other)).registry = [] := Registry.gained_take ..
      rw [hgained]
      exact List.Subperm.refl _
  | call index =>
      cases hcall : traffic.calls[index]? with
      | none =>
          rw [turn_of_none hcall, Registry.gained_of_waitingOn_eq rfl]
          exact List.Subperm.refl _
      | some call =>
          rw [turn_call hcall]
          obtain ⟨others, hbefore, hafter⟩ := copies_perm hcall
            (call.step traffic.registry).1 (call.step traffic.registry).2 key
          refine ((hafter.append_left _).subperm_right.mpr ?_).trans hbefore.symm.subperm
          rw [← List.append_assoc]
          exact (Call.gained_step hretired call).subperm.append (List.Subperm.refl others)

/-- All that is ever queued on a queue without an entry is on copies that are held already. -/
theorem queued_subperm (hretired : traffic.registry.Retired key) (turns : List Turn) :
    (traffic.queued key turns).Subperm (traffic.copies key) := by
  induction turns generalizing traffic with
  | nil => exact List.nil_subperm
  | cons turn rest ih =>
      exact ((List.subperm_append_left _).mpr (ih (retired_turn hretired turn))).trans
        (gained_turn hretired turn)

/-! Runs that queue something. -/

theorem calls_turn (hcall : traffic.calls[index]? = some call) :
    (traffic.turn (.call index)).calls[index]? = some (call.step traffic.registry).2 := by
  rw [turn_call hcall]
  exact List.getElem?_set_self (List.getElem?_eq_some_iff.mp hcall).1

theorem exists_queued_of_turn {turn : Turn}
    (hrest : ∃ turns, (traffic.turn turn).queued key turns ≠ []) :
    ∃ turns, traffic.queued key turns ≠ [] := by
  obtain ⟨turns, hqueued⟩ := hrest
  exact ⟨turn :: turns, fun hnil => hqueued (List.append_eq_nil_iff.mp hnil).2⟩

/-- A message is pushed on one copy after the other, so that it gets to each queue in turn. -/
theorem exists_queued_of_push {copies : List (Identifier × Connection)}
    (hcall : traffic.calls[index]? = some (.push message copies))
    (hroom : traffic.registry.hasRoom key = true)
    (hcopies : (Call.push message copies).copies key ≠ []) :
    ∃ turns, traffic.queued key turns ≠ [] := by
  induction copies generalizing traffic with
  | nil => exact absurd rfl hcopies
  | cons entry copies ih =>
      obtain ⟨user, connection⟩ := entry
      by_cases hkey : connection.queue = key
      · refine ⟨[.call index], ?_⟩
        have hgained : Registry.gained key traffic.registry
            (traffic.turn (.call index)).registry = [message] := by
          rw [turn_call hcall]
          exact (Call.gained_offer ..).trans (if_pos ⟨hkey, hroom⟩)
        rw [queued, hgained]
        exact List.cons_ne_nil _ _
      · rw [Call.copies_push_cons, if_neg hkey, List.nil_append] at hcopies
        have hoffered := calls_turn hcall
        have hsettled := calls_turn hoffered
        refine exists_queued_of_turn (exists_queued_of_turn (ih hsettled ?_ hcopies))
        rw [turn_call hoffered, turn_call hcall, ← hroom]
        apply Registry.hasRoom_congr
        exact (Registry.queue?_settle ..).trans ((Registry.queue?_changeQueue ..).trans (if_neg hkey))

theorem exists_queued_of_copies (hroom : traffic.registry.hasRoom key = true)
    (hcopies : traffic.copies key ≠ []) : ∃ turns, traffic.queued key turns ≠ [] := by
  obtain ⟨message, hmessage⟩ := List.exists_mem_of_ne_nil _ hcopies
  obtain ⟨call, hcall, hmessage⟩ := List.mem_flatMap.mp hmessage
  obtain ⟨index, hcall⟩ := List.getElem?_of_mem hcall
  have hne := List.ne_nil_of_mem hmessage
  cases call with
  | push message copies => exact exists_queued_of_push hcall hroom hne
  | settle user id taken message copies =>
      refine exists_queued_of_turn (exists_queued_of_push (calls_turn hcall) ?_ hne)
      rw [turn_call hcall, ← hroom]
      exact Registry.hasRoom_congr (Registry.queue?_settle ..)
  | _ => exact absurd rfl hne

end Traffic

end Herald.Live
