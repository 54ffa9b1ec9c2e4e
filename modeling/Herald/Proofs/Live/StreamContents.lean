import Herald.Proofs.Live.Contents

/-!
The contents of every subscription of a run. A recorded ledger is one whose earlier moments knew no
subscriptions but its own; each operation adds a moment to the record, and the contents of every
subscription that nobody dropped go on following it.
-/

namespace Herald.Live

variable {ledger : Ledger} {subscription : Subscription} {operation : Operation} {user : Identifier}
  {moments : List Moment}

namespace Ledger

structure Recorded (ledger : Ledger) (moments : List Moment) : Prop where
  inv : ledger.Inv
  earlier : ∀ moment ∈ moments,
    moment.ledger.Inv ∧ moment.ledger.subscriptions ⊆ ledger.subscriptions
  follows : ∀ subscription ∈ ledger.subscriptions,
    (∀ moment ∈ moments, ¬moment.Drops subscription) → ledger.Follows moments subscription

theorem subscriptions_subset_step (hinv : ledger.Inv) (operation : Operation) :
    ledger.subscriptions ⊆ (ledger.step operation).subscriptions := by
  rcases subscriptions_step ledger operation with hsame | ⟨user, rfl⟩
  · rw [hsame]
    exact List.Subset.refl _
  · rw [subscriptions_subscribe hinv]
    exact List.subset_cons_self _ _

namespace Recorded

/-- The record with one more moment. -/
theorem earlier_step (hrecorded : ledger.Recorded moments) (operation : Operation) :
    ∀ moment ∈ moments ++ [⟨ledger, operation⟩], moment.ledger.Inv ∧
      moment.ledger.subscriptions ⊆ ledger.subscriptions := by
  intro moment hmoment
  rcases List.mem_append.mp hmoment with hearlier | hlast
  · exact hrecorded.earlier moment hearlier
  · rw [List.mem_singleton.mp hlast]
    exact ⟨hrecorded.inv, List.Subset.refl _⟩

theorem precedes_next (hrecorded : ledger.Recorded moments) (user : Identifier) :
    ∀ moment ∈ moments ++ [⟨ledger, .subscribe user⟩],
      moment.Precedes (ledger.manager.nextSubscription user) := by
  intro moment hmoment
  obtain ⟨hinv, hsubset⟩ := hrecorded.earlier_step _ moment hmoment
  refine ⟨hinv, fun known hknown hid => ?_⟩
  have hle := hrecorded.inv.id_le_issued (hsubset hknown)
  rw [hid] at hle
  exact Nat.not_succ_le_self _ hle

/-- A new subscription starts with its greeting. -/
theorem follows_next (hrecorded : ledger.Recorded moments) (user : Identifier) :
    (ledger.step (.subscribe user)).Follows (moments ++ [⟨ledger, .subscribe user⟩])
      (ledger.manager.nextSubscription user) := by
  have hnew := hrecorded.precedes_next user
  obtain ⟨hcontents, hopen⟩ := Subscription.contents_of_precedes hnew
  refine ⟨?_, fun _ => hopen⟩
  rw [Subscription.read_of_precedes hnew, hcontents, Ledger.step, subscribe_eq hrecorded.inv]
  exact ⟨_, Manager.queue?_subscribed_self hrecorded.inv.capacity hrecorded.inv.covered user, rfl⟩

theorem follows_earlier (hrecorded : ledger.Recorded moments)
    (hmem : subscription ∈ ledger.subscriptions)
    (hkept : ∀ moment ∈ moments ++ [⟨ledger, operation⟩], ¬moment.Drops subscription) :
    (ledger.step operation).Follows (moments ++ [⟨ledger, operation⟩]) subscription := by
  refine (hrecorded.follows subscription hmem ?_).step ?_
  · exact fun moment hmoment => hkept moment (List.mem_append_left _ hmoment)
  · exact hrecorded.inv.acts_step hmem operation
      (hkept _ (List.mem_append_right _ List.mem_cons_self))

theorem step (hrecorded : ledger.Recorded moments) (operation : Operation) :
    (ledger.step operation).Recorded (moments ++ [⟨ledger, operation⟩]) where
  inv := hrecorded.inv.step operation
  earlier := by
    intro moment hmoment
    obtain ⟨hinv, hsubset⟩ := hrecorded.earlier_step operation moment hmoment
    exact ⟨hinv, List.Subset.trans hsubset (subscriptions_subset_step hrecorded.inv operation)⟩
  follows := by
    intro subscription hmem hkept
    rcases subscriptions_step ledger operation with hsame | ⟨user, rfl⟩
    · exact hrecorded.follows_earlier (hsame ▸ hmem) hkept
    · rw [subscriptions_subscribe hrecorded.inv] at hmem
      rcases List.mem_cons.mp hmem with rfl | hearlier
      · exact hrecorded.follows_next user
      · exact hrecorded.follows_earlier hearlier hkept

theorem run (hrecorded : ledger.Recorded moments) (operations : List Operation) :
    (ledger.run operations).Recorded (moments ++ ledger.moments operations) := by
  induction operations generalizing ledger moments with
  | nil =>
      rw [Ledger.moments, List.append_nil]
      exact hrecorded
  | cons operation rest ih =>
      rw [Ledger.moments, List.append_cons]
      exact ih (hrecorded.step operation)

end Recorded

theorem recorded_start (capacity : Nat) : (start capacity).Recorded [] where
  inv := inv_start capacity
  earlier _ hmoment := absurd hmoment List.not_mem_nil
  follows _ hmem := absurd hmem List.not_mem_nil

end Ledger

theorem Subscription.exists_of_mem_pushed {message : Message}
    (hmessage : message ∈ subscription.pushed moments) :
    ∃ moment ∈ moments, moment.isRegistered subscription = true ∧
      moment.isFull subscription = false ∧
      moment.operation.message? subscription.user = some message := by
  obtain ⟨moment, hmoment, hsome⟩ := List.mem_filterMap.mp hmessage
  have hroom := List.mem_takeWhile_imp hmoment
  have hmem := (List.mem_filter.mp ((List.takeWhile_prefix _).subset hmoment)).1
  have hregistered := Moment.isRegistered_of_message? hsome
  rw [Moment.message?, if_pos hregistered] at hsome
  exact ⟨moment, hmem, hregistered, (Bool.not_eq_true' _).mp hroom, hsome⟩

theorem Ledger.operation_mem {operations : List Operation} {moment : Moment}
    (hmoment : moment ∈ ledger.moments operations) : moment.operation ∈ operations := by
  induction operations generalizing ledger with
  | nil => exact absurd hmoment List.not_mem_nil
  | cons operation rest ih =>
      rcases List.mem_cons.mp hmoment with rfl | hrest
      · exact List.mem_cons_self
      · exact List.mem_cons_of_mem _ (ih hrest)

/--
After any operations on a manager, what has been read of a subscription that was not dropped and what
waits on it are together: its greeting; every message for its user while it was the user's connection,
in order and up to the first that found it full; and the farewell, if a later subscription of the user
found it registered and with room.
-/
theorem Ledger.stream_contents (capacity : Nat) (operations : List Operation) :
    let ledger := (start capacity).run operations
    let moments := (start capacity).moments operations
    ∀ subscription ∈ ledger.subscriptions, (∀ moment ∈ moments, ¬moment.Drops subscription) →
      ∃ queue, ledger.manager.registry.queue? subscription.queue = some queue ∧
        subscription.read moments ++ queue.waiting =
          .connected subscription.id.text :: subscription.pushed moments ++
            subscription.farewell moments ∧
        ∀ message ∈ subscription.pushed moments, ∃ moment ∈ moments,
          moment.isRegistered subscription = true ∧ moment.isFull subscription = false ∧
            moment.operation.message? subscription.user = some message := by
  intro ledger moments subscription hmem hkept
  have hrecorded := (recorded_start capacity).run operations
  obtain ⟨queue, hqueue, hcontents⟩ := (hrecorded.follows subscription hmem hkept).contents
  exact ⟨queue, hqueue, hcontents, fun message => Subscription.exists_of_mem_pushed⟩

/-- A stream that takes one of two messages for it, and is replaced. -/
theorem Ledger.stream_contents_of_replaced :
    let user : Identifier := .ofNat 7
    let operations : List Operation := [.subscribe user, .sweep, .receive ⟨1⟩,
      .send (.ofNat 8) .heartbeat, .subscribe user, .send user .heartbeat]
    let moments := (start 3).moments operations
    let subscription : Subscription := ⟨user, ⟨1⟩, 0⟩
    subscription ∈ ((start 3).run operations).subscriptions ∧
      (∀ moment ∈ moments, ¬moment.Drops subscription) ∧
      ∃ queue, ((start 3).run operations).manager.registry.queue? 0 = some queue ∧
        subscription.read moments ++ queue.waiting =
          [.connected (ConnectionId.text ⟨1⟩), .heartbeat, .sessionExpired] := by
  intro user operations moments subscription
  have hmem : subscription ∈ ((start 3).run operations).subscriptions := by decide
  have hkept : ∀ moment ∈ moments, ¬moment.Drops subscription := by
    intro moment hmoment hdrops
    have hoperation : .drop subscription.id ∈ operations := hdrops.1 ▸ operation_mem hmoment
    simp [operations] at hoperation
  have hpushed : subscription.pushed moments = [.heartbeat] := by decide
  have hfarewell : subscription.farewell moments = [.sessionExpired] := by decide
  obtain ⟨queue, hqueue, hcontents, _⟩ := stream_contents 3 operations subscription hmem hkept
  rw [hpushed, hfarewell] at hcontents
  exact ⟨hmem, hkept, queue, hqueue, hcontents⟩

end Herald.Live
