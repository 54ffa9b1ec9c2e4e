import Herald.Proofs.Live.Capacity
import Herald.Proofs.Live.Replies
import Herald.Proofs.Live.Staying
import Herald.Proofs.Live.StreamContents

/-!
Readers that stop reading, and readers that keep up. A subscription that nobody reads takes as many
messages as its queue has room for, and the next one ends it, with all that was queued left to read. One
whose queue has room whenever a message comes stays registered. Sweeps are such messages too, and count
the connections that are left.
-/

namespace Herald.Live

/-- Whether a subscription is neither dropped nor replaced at a moment. -/
structure Moment.Spares (subscription : Subscription) (moment : Moment) : Prop where
  drops : ¬moment.Drops subscription
  subscribes : moment.isRegistered subscription = true →
    moment.operation.subscribes subscription.user = false

def Operation.isSweep : Operation → Bool
  | .sweep => true
  | _ => false

/-- The messages that operations have for a user's connection. -/
def Operation.messages (user : Identifier) (operations : List Operation) : List Message :=
  operations.filterMap (Operation.message? user)

theorem Operation.length_sweeps_le (user : Identifier) (operations : List Operation) :
    (operations.filter isSweep).length ≤ (messages user operations).length := by
  rw [messages, List.length_filterMap_eq_countP, ← List.countP_eq_length_filter]
  apply List.countP_mono_left
  intro operation _ hsweep
  cases operation with
  | sweep => rfl
  | _ => nomatch hsweep

theorem Subscription.read_cons (subscription : Subscription) (moment : Moment)
    (moments : List Moment) :
    subscription.read (moment :: moments) = moment.taken subscription ++ subscription.read moments :=
  List.flatMap_cons

namespace Ledger

variable {ledger : Ledger} {subscription : Subscription} {operation : Operation} {queue : Queue}
  {capacity : Nat}

theorem subscriptions_subset_run (hinv : ledger.Inv) (operations : List Operation) :
    ledger.subscriptions ⊆ (ledger.run operations).subscriptions := by
  induction operations generalizing ledger with
  | nil => exact List.Subset.refl _
  | cons operation rest ih =>
      exact List.Subset.trans (subscriptions_subset_step hinv operation) (ih (hinv.step operation))

/-! A subscription that has left the registry. -/

theorem Inv.acts_of_gone (hinv : ledger.Inv) (hmem : subscription ∈ ledger.subscriptions)
    (hqueue : ledger.manager.registry.queue? subscription.queue = some queue)
    (hgone : ¬ledger.manager.registry.IsConnection subscription.user subscription.id)
    (hdrop : ¬Moment.Drops subscription ⟨ledger, operation⟩) :
    ¬(ledger.step operation).manager.registry.IsConnection subscription.user subscription.id ∧
      ∃ left, (ledger.step operation).manager.registry.queue? subscription.queue = some left ∧
        Moment.taken subscription ⟨ledger, operation⟩ ++ left.waiting = queue.waiting := by
  have hacts := hinv.acts_step hmem operation hdrop
  have hnone : Moment.isRegistered subscription ⟨ledger, operation⟩ = false := decide_eq_false hgone
  have htold := (Subscription.contents_append_of_not_registered [] hnone).2
  refine ⟨fun hafter => hgone (hacts.registered hafter).1, ?_⟩
  obtain ⟨left, hleft, hwaiting⟩ := hacts.contents queue hqueue
  rw [htold, List.append_nil] at hwaiting
  exact ⟨left, hleft, hwaiting⟩

/-- It can be read to its end, whatever else happens. -/
theorem Inv.run_of_gone (hinv : ledger.Inv) (hmem : subscription ∈ ledger.subscriptions)
    (hqueue : ledger.manager.registry.queue? subscription.queue = some queue)
    (hgone : ¬ledger.manager.registry.IsConnection subscription.user subscription.id)
    {later : List Operation}
    (hkept : ∀ moment ∈ ledger.moments later, ¬moment.Drops subscription) :
    ¬(ledger.run later).manager.registry.IsConnection subscription.user subscription.id ∧
      ∃ left, (ledger.run later).manager.registry.queue? subscription.queue = some left ∧
        subscription.read (ledger.moments later) ++ left.waiting = queue.waiting := by
  induction later generalizing ledger queue with
  | nil => exact ⟨hgone, queue, hqueue, rfl⟩
  | cons operation rest ih =>
      obtain ⟨hnow, hrest⟩ := List.forall_mem_cons.mp hkept
      obtain ⟨hafter, left, hleft, htaken⟩ := hinv.acts_of_gone hmem hqueue hgone hnow
      have hmem' := subscriptions_subset_step hinv operation hmem
      obtain ⟨hend, last, hlast, hread⟩ := ih (hinv.step operation) hmem' hleft hafter hrest
      refine ⟨hend, last, hlast, ?_⟩
      rw [Ledger.moments, Subscription.read_cons, List.append_assoc, hread, htaken]

/-- The messages can be read from a subscription one by one, and after them its end, whatever is done
meanwhile but drop it. -/
def Readable (ledger : Ledger) (subscription : Subscription) (messages : List Message) : Prop :=
  ∀ later, (∀ moment ∈ ledger.moments later, ¬moment.Drops subscription) →
    ∃ left, (ledger.run later).manager.registry.queue? subscription.queue = some left ∧
      subscription.read (ledger.moments later) ++ left.waiting = messages ∧
      ((ledger.run later).manager.receive subscription).2 =
        (left.waiting.head?.map Manager.Reading.message).getD .ended

theorem Inv.readable_of_gone (hinv : ledger.Inv) (hmem : subscription ∈ ledger.subscriptions)
    (hqueue : ledger.manager.registry.queue? subscription.queue = some queue)
    (hgone : ¬ledger.manager.registry.IsConnection subscription.user subscription.id) :
    ledger.Readable subscription queue.waiting := by
  intro later hkept
  obtain ⟨hend, left, hleft, hread⟩ := hinv.run_of_gone hmem hqueue hgone hkept
  refine ⟨left, hleft, hread, ?_⟩
  cases hwaiting : left.waiting with
  | nil =>
      obtain ⟨holding, hholding, rfl⟩ :=
        exists_holding_of_mem (subscriptions_subset_run hinv later hmem)
      exact ((hinv.run later).receive_eq_ended_iff hholding hleft).mpr ⟨hend, hwaiting⟩
  | cons message rest =>
      rw [Manager.receive_of_cons hleft hwaiting]
      rfl

/-! A subscription that is not read. -/

/-- A registered subscription is full exactly if it holds as much as its queue can. -/
theorem Inv.isFull_iff (hinv : ledger.Inv) (hmem : subscription ∈ ledger.subscriptions)
    (hqueue : ledger.manager.registry.queue? subscription.queue = some queue)
    (hregistered : ledger.manager.registry.IsConnection subscription.user subscription.id) :
    ledger.manager.registry.isFull subscription.queue = true ↔
      queue.capacity ≤ queue.waiting.length := by
  have hroom := hinv.hasRoom_eq hmem hregistered
  rw [Registry.hasRoom_of_queue? hqueue, Queue.hasRoom, Registry.isFull, hqueue] at hroom
  rw [Registry.isFull, hqueue]
  cases hreceiver : decide (queue.receiver = .opened) with
  | true => simp [hreceiver]
  | false => simp [hreceiver] at hroom

/-- An operation on a registered subscription that nobody reads, drops or replaces. -/
theorem Inv.acts_of_neglected (hinv : ledger.Inv) (hmem : subscription ∈ ledger.subscriptions)
    (hqueue : ledger.manager.registry.queue? subscription.queue = some queue)
    (hregistered : ledger.manager.registry.IsConnection subscription.user subscription.id)
    (hspares : Moment.Spares subscription ⟨ledger, operation⟩)
    (htaken : Moment.taken subscription ⟨ledger, operation⟩ = []) :
    ∃ left, (ledger.step operation).manager.registry.queue? subscription.queue = some left ∧
      left.waiting = queue.waiting ++
        if queue.capacity ≤ queue.waiting.length then []
        else (operation.message? subscription.user).toList := by
  have hsubscribes := hspares.subscribes (decide_eq_true hregistered)
  obtain ⟨left, hleft, hwaiting⟩ :=
    (hinv.acts_step hmem operation hspares.drops).contents queue hqueue
  have hmessage := Moment.message?_of_registered operation hregistered
  refine ⟨left, hleft, ?_⟩
  change ledger.taken subscription.id operation = [] at htaken
  rw [htaken, List.nil_append, Moment.told_of_not_subscribes _ hsubscribes, hmessage] at hwaiting
  rw [hwaiting]
  congr 1
  exact if_congr (hinv.isFull_iff hmem hqueue hregistered) rfl rfl

theorem Inv.isConnection_neglected_iff (hinv : ledger.Inv)
    (hmem : subscription ∈ ledger.subscriptions)
    (hqueue : ledger.manager.registry.queue? subscription.queue = some queue)
    (hregistered : ledger.manager.registry.IsConnection subscription.user subscription.id)
    (hspares : Moment.Spares subscription ⟨ledger, operation⟩) :
    (ledger.step operation).manager.registry.IsConnection subscription.user subscription.id ↔
      ((operation.message? subscription.user).isSome = true →
        queue.waiting.length < queue.capacity) := by
  have hsubscribes := hspares.subscribes (decide_eq_true hregistered)
  have hmessage := Moment.message?_of_registered operation hregistered
  have hfull : Moment.isFull subscription ⟨ledger, operation⟩ = false ↔
      queue.waiting.length < queue.capacity := by
    rw [← Bool.not_eq_true, Moment.isFull, hinv.isFull_iff hmem hqueue hregistered, Nat.not_le]
  rw [← hmessage, ← hfull]
  constructor
  · intro hafter
    exact ((hinv.acts_step hmem operation hspares.drops).registered hafter).2.1
  · exact hinv.isConnection_step hmem operation hspares.drops hsubscribes hregistered

/-- Of messages that were pushed on a subscription, its queue took those that it had room for, behind
what waited there before; it is registered unless there were more of them. -/
structure Took (ledger : Ledger) (subscription : Subscription) (waiting pushed : List Message)
    (room : Nat) : Prop where
  registered : ledger.manager.registry.IsConnection subscription.user subscription.id ↔
    pushed.length ≤ room
  queue : ∃ left, ledger.manager.registry.queue? subscription.queue = some left ∧
    left.waiting = waiting ++ pushed.take room

variable {waiting pushed : List Message} {message : Message} {room : Nat}

theorem Took.cons (htook : ledger.Took subscription (waiting ++ [message]) pushed room) :
    ledger.Took subscription waiting (message :: pushed) (room + 1) where
  registered := htook.registered.trans Nat.succ_le_succ_iff.symm
  queue := by
    obtain ⟨left, hleft, hwaiting⟩ := htook.queue
    refine ⟨left, hleft, ?_⟩
    rw [hwaiting, List.append_assoc]
    rfl

/-- Without a reader, a subscription that has left the registry keeps what it holds. -/
theorem Inv.took_of_gone (hinv : ledger.Inv) (hmem : subscription ∈ ledger.subscriptions)
    (hqueue : ledger.manager.registry.queue? subscription.queue = some queue)
    (hgone : ¬ledger.manager.registry.IsConnection subscription.user subscription.id)
    {later : List Operation}
    (hspares : ∀ moment ∈ ledger.moments later, moment.Spares subscription)
    (htaken : ∀ moment ∈ ledger.moments later, moment.taken subscription = []) :
    (ledger.run later).Took subscription queue.waiting (message :: pushed) 0 := by
  obtain ⟨hend, left, hleft, hread⟩ := hinv.run_of_gone hmem hqueue hgone
    fun moment hmoment => (hspares moment hmoment).drops
  have hnothing : subscription.read (ledger.moments later) = [] :=
    List.flatMap_eq_nil_iff.mpr htaken
  rw [hnothing] at hread
  exact ⟨iff_of_false hend (Nat.not_succ_le_zero _), left, hleft,
    hread.trans (List.append_nil _).symm⟩

/-- Without a reader, a subscription takes messages up to its capacity and is gone with the next one. -/
theorem Inv.took_of_neglected (hinv : ledger.Inv) (hsized : ledger.manager.Sized capacity)
    (hmem : subscription ∈ ledger.subscriptions)
    (hqueue : ledger.manager.registry.queue? subscription.queue = some queue)
    (hregistered : ledger.manager.registry.IsConnection subscription.user subscription.id)
    {later : List Operation}
    (hspares : ∀ moment ∈ ledger.moments later, moment.Spares subscription)
    (htaken : ∀ moment ∈ ledger.moments later, moment.taken subscription = []) :
    (ledger.run later).Took subscription queue.waiting
      (Operation.messages subscription.user later) (capacity - queue.waiting.length) := by
  induction later generalizing ledger queue with
  | nil =>
      refine ⟨iff_of_true hregistered (Nat.zero_le _), queue, hqueue, ?_⟩
      simp [Operation.messages]
  | cons operation rest ih =>
      obtain ⟨hspared, hspares⟩ := List.forall_mem_cons.mp hspares
      obtain ⟨hunread, htaken⟩ := List.forall_mem_cons.mp htaken
      obtain ⟨left, hleft, hwaiting⟩ :=
        hinv.acts_of_neglected hmem hqueue hregistered hspared hunread
      have hstays := hinv.isConnection_neglected_iff hmem hqueue hregistered hspared
      have hmem' := subscriptions_subset_step hinv operation hmem
      have hrest (hstay) := ih (hinv.step operation) (sized_step hsized operation) hmem' hleft hstay
        hspares htaken
      rw [(hsized.queues hqueue).1] at hwaiting hstays
      cases hmessage : operation.message? subscription.user with
      | none =>
          have hsame : left.waiting = queue.waiting := by simpa [hmessage] using hwaiting
          rw [Operation.messages, List.filterMap_cons_none hmessage, ← hsame]
          exact hrest (hstays.mpr (by simp [hmessage]))
      | some message =>
          rw [Operation.messages, List.filterMap_cons_some hmessage]
          by_cases hroom : queue.waiting.length < capacity
          · have hone : left.waiting = queue.waiting ++ [message] := by
              simpa [hmessage, Nat.not_le.mpr hroom] using hwaiting
            have hleast : capacity - queue.waiting.length = capacity - left.waiting.length + 1 := by
              rw [hone, List.length_append, List.length_singleton]
              omega
            rw [hleast]
            apply Took.cons
            rw [← hone]
            exact hrest (hstays.mpr fun _ => hroom)
          · have hnone : left.waiting = queue.waiting := by
              simpa [hmessage, Nat.not_lt.mp hroom] using hwaiting
            have hgone := mt hstays.mp fun hall => hroom (hall (by rw [hmessage]; rfl))
            rw [Nat.sub_eq_zero_of_le (Nat.not_lt.mp hroom), ← hnone]
            exact (hinv.step operation).took_of_gone hmem' hleft hgone hspares htaken

/-! A subscription with room for every message. -/

theorem Inv.run_of_heeded (hinv : ledger.Inv) (hmem : subscription ∈ ledger.subscriptions)
    (hregistered : ledger.manager.registry.IsConnection subscription.user subscription.id)
    {later : List Operation}
    (hspares : ∀ moment ∈ ledger.moments later, moment.Spares subscription)
    (hroom : ∀ moment ∈ ledger.moments later, (moment.message? subscription).isSome = true →
      ∀ queue, moment.ledger.manager.registry.queue? subscription.queue = some queue →
        queue.waiting.length < queue.capacity) :
    (ledger.run later).manager.registry.IsConnection subscription.user subscription.id := by
  induction later generalizing ledger with
  | nil => exact hregistered
  | cons operation rest ih =>
      obtain ⟨hspared, hspares⟩ := List.forall_mem_cons.mp hspares
      obtain ⟨hnow, hroom⟩ := List.forall_mem_cons.mp hroom
      obtain ⟨holding, hholding, rfl⟩ := exists_holding_of_mem hmem
      obtain ⟨queue, hqueue, _⟩ := hinv.queue holding hholding
      rw [Moment.message?_of_registered operation hregistered] at hnow
      have hstays := (hinv.isConnection_neglected_iff hmem hqueue hregistered hspared).mpr
        fun hsome => hnow hsome queue hqueue
      exact ih (hinv.step operation) (subscriptions_subset_step hinv operation hmem) hstays hspares
        hroom

end Ledger

/-! Sweeping. -/

namespace Registry

variable {registry : Registry}

/-- A broadcast leaves the connections whose queues have room. -/
theorem connection?_broadcast (husers : registry.users.Nodup) (hseparate : registry.Separate)
    (message : Message) (user : Identifier) :
    (registry.broadcast message).1.connection? user =
      (registry.connection? user).filter fun connection => registry.hasRoom connection.queue := by
  rw [(broadcast_pushed husers hseparate message).connection]
  cases hconnection : registry.connection? user with
  | none => rfl
  | some connection =>
      have hkey : connection.queue ∈ registry.allKeys :=
        (mem_allKeys_iff husers).mpr ⟨user, connection, hconnection, rfl⟩
      rw [Option.filter_some, Option.filter_some, keeps_of_mem hkey]

theorem mem_allKeys_broadcast (husers : registry.users.Nodup) (hseparate : registry.Separate)
    (message : Message) (key : QueueKey) :
    key ∈ (registry.broadcast message).1.allKeys ↔
      key ∈ registry.allKeys ∧ registry.hasRoom key = true := by
  have hafter : (registry.broadcast message).1.users.Nodup :=
    husers.sublist (broadcast_pushed husers hseparate message).users
  simp only [mem_allKeys_iff hafter, mem_allKeys_iff husers,
    connection?_broadcast husers hseparate, Option.filter_eq_some_iff]
  constructor
  · rintro ⟨user, connection, ⟨hconnection, hroom⟩, rfl⟩
    exact ⟨⟨user, connection, hconnection, rfl⟩, hroom⟩
  · rintro ⟨⟨user, connection, hconnection, rfl⟩, hroom⟩
    exact ⟨user, connection, ⟨hconnection, hroom⟩, rfl⟩

/-- A broadcast puts one copy on each queue whose connection it leaves, and changes no other queue. -/
theorem queue?_broadcast (husers : registry.users.Nodup) (hseparate : registry.Separate)
    (message : Message) (key : QueueKey) :
    (registry.broadcast message).1.queue? key = (registry.queue? key).map
      (·.followedBy (if key ∈ (registry.broadcast message).1.allKeys then [message] else [])) := by
  rw [(broadcast_pushed husers hseparate message).queue]
  simp only [mem_allKeys_broadcast husers hseparate]
  cases hqueue : registry.queue? key with
  | none => simp
  | some queue =>
      by_cases hkey : key ∈ registry.allKeys
      · simp [hkey, Queue.push_eq, hasRoom_of_queue? hqueue]
      · simp [hkey, Queue.followedBy]

end Registry

/-- After any operations on a manager, it makes no difference in which order a broadcast visits the entries. -/
theorem Ledger.broadcast_in_any_order (capacity : Nat) (history : List Operation) (order : Order)
    (message : Message) :
    let registry := ((start capacity).run history).manager.registry
    registry.broadcastIn order message = registry.broadcast message := by
  intro registry
  have hinv : ((start capacity).run history).Inv := inv_run capacity history
  exact Registry.broadcastIn_eq_broadcast hinv.users hinv.separate order message

/--
After any operations on a manager: a registered subscription that is neither dropped nor replaced, and
from which nothing is read, takes as many of the messages for it as its queue has room for and is gone with
the next one, so that one sweep more than it has room for is enough; what it holds then fills its queue and
can be read to its end. If it holds less than its capacity whenever there is a message for it, it stays. A
sweep leaves just the connections with room, adds one heartbeat to the queue of each, and returns how many
they are.
-/
theorem Ledger.stalled_subscriptions_are_reclaimed (capacity : Nat) (history : List Operation) :
    let ledger := (start capacity).run history
    let manager := ledger.manager
    (∀ subscription ∈ ledger.subscriptions,
      manager.registry.IsConnection subscription.user subscription.id →
      ∃ queue, manager.registry.queue? subscription.queue = some queue ∧
        queue.capacity = max capacity 1 ∧
        let room := queue.capacity - queue.waiting.length
        ∀ later, (∀ moment ∈ ledger.moments later, moment.Spares subscription) →
          let after := ledger.run later
          let pushed := Operation.messages subscription.user later
          ((∀ moment ∈ ledger.moments later, moment.taken subscription = []) →
            after.Took subscription queue.waiting pushed room ∧
            (room < (later.filter Operation.isSweep).length →
              ¬after.manager.registry.IsConnection subscription.user subscription.id) ∧
            (room < pushed.length →
              (queue.waiting ++ pushed.take room).length = queue.capacity ∧
              after.Readable subscription (queue.waiting ++ pushed.take room))) ∧
          ((∀ moment ∈ ledger.moments later, (moment.message? subscription).isSome = true →
              ∀ queue, moment.ledger.manager.registry.queue? subscription.queue = some queue →
                queue.waiting.length < queue.capacity) →
            after.manager.registry.IsConnection subscription.user subscription.id)) ∧
    let swept := manager.sweep.1
    (∀ user, swept.registry.connection? user = (manager.registry.connection? user).filter
      fun connection => manager.registry.hasRoom connection.queue) ∧
    (∀ key, swept.registry.queue? key = (manager.registry.queue? key).map
      (·.followedBy (if key ∈ swept.registry.allKeys then [.heartbeat] else []))) ∧
    manager.sweep.2 = swept.count := by
  intro ledger manager
  have hinv : ledger.Inv := inv_run capacity history
  have hsized : manager.Sized (max capacity 1) := sized_run (sized_start capacity) history
  refine ⟨?_, Registry.connection?_broadcast hinv.users hinv.separate .heartbeat,
    Registry.queue?_broadcast hinv.users hinv.separate .heartbeat,
    (Registry.broadcastReport hinv.users .heartbeat .inserted).size.symm⟩
  intro subscription hmem hregistered
  obtain ⟨holding, hholding, rfl⟩ := exists_holding_of_mem hmem
  obtain ⟨queue, hqueue, -⟩ := hinv.queue holding hholding
  obtain ⟨hcapacity, hlength⟩ := hsized.queues hqueue
  refine ⟨queue, hqueue, hcapacity, ?_⟩
  intro room later hspares after pushed
  refine ⟨fun htaken => ?_, hinv.run_of_heeded hmem hregistered hspares⟩
  have htook : after.Took holding.subscription queue.waiting pushed room := by
    have htook := hinv.took_of_neglected hsized hmem hqueue hregistered hspares htaken
    rwa [← hcapacity] at htook
  refine ⟨htook, fun hsweeps hafter => ?_, fun hpushed => ⟨?_, ?_⟩⟩
  · have hle := htook.registered.mp hafter
    have hcount := Operation.length_sweeps_le holding.subscription.user later
    exact Nat.lt_irrefl room (Nat.lt_of_lt_of_le hsweeps (Nat.le_trans hcount hle))
  · rw [List.length_append, List.length_take, Nat.min_eq_left (Nat.le_of_lt hpushed)]
    omega
  · obtain ⟨left, hleft, hwaiting⟩ := htook.queue
    rw [← hwaiting]
    apply (hinv.run later).readable_of_gone (subscriptions_subset_run hinv later hmem) hleft
    exact fun hafter => Nat.not_le.mpr hpushed (htook.registered.mp hafter)

/-- Of two places the greeting takes one and the first sweep the other; the second sweep finds no room. -/
example : [0, 1, 2].map (fun sweeps => ((Ledger.start 2).run
    (.subscribe (.ofNat 7) :: List.replicate sweeps .sweep)).manager.count) = [1, 1, 0] := by decide

end Herald.Live
