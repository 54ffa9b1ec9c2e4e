import Herald.Proofs.Live.Acceptance
import Herald.Proofs.Live.SessionSteps

/-!
The capacity of a manager's queues. Every queue is made with the manager's capacity and keeps it, and
never holds more messages than that.
-/

namespace Herald.Live

namespace Registry

variable {registry after : Registry} {capacity : Nat}

/-- All queues have a certain capacity, and none holds more. -/
def Sized (capacity : Nat) (registry : Registry) : Prop :=
  ∀ ⦃key : QueueKey⦄ ⦃queue : Queue⦄, registry.queue? key = some queue →
    queue.capacity = capacity ∧ queue.waiting.length ≤ capacity

theorem Sized.of_queues_eq (hsized : registry.Sized capacity)
    (hqueues : after.queues = registry.queues) : after.Sized capacity := by
  intro key queue hqueue
  rw [queue?, hqueues] at hqueue
  exact hsized hqueue

theorem Sized.changeQueue (hsized : registry.Sized capacity) (key : QueueKey)
    {change : Queue → Queue}
    (hchange : ∀ queue : Queue, (change queue).capacity = queue.capacity ∧
      (change queue).waiting.length ≤ queue.waiting.length) :
    (registry.changeQueue key change).Sized capacity := by
  intro other queue hqueue
  rw [queue?_changeQueue] at hqueue
  split at hqueue
  case isFalse => exact hsized hqueue
  case isTrue =>
    obtain ⟨found, hfound, rfl⟩ := Option.map_eq_some_iff.mp hqueue
    obtain ⟨hcapacity, hlength⟩ := hsized hfound
    exact ⟨(hchange found).1.trans hcapacity, Nat.le_trans (hchange found).2 hlength⟩

theorem Sized.openQueue (hsized : registry.Sized capacity) :
    (registry.openQueue capacity).1.Sized capacity := by
  intro key queue hqueue
  have hmem := List.mem_of_getElem? hqueue
  rw [Registry.openQueue, List.mem_append, List.mem_singleton] at hmem
  obtain hmem | rfl := hmem
  · obtain ⟨other, hother⟩ := List.mem_iff_getElem?.mp hmem
    exact hsized hother
  · exact ⟨rfl, Nat.zero_le capacity⟩

theorem Sized.of_accepts {accepted : List (QueueKey × Message)} (hsized : registry.Sized capacity)
    (haccepts : Accepts accepted registry after) : after.Sized capacity := by
  have hfits : registry.Fits := fun key queue hqueue =>
    (hsized hqueue).1 ▸ (hsized hqueue).2
  intro key queue hqueue
  have hlength := haccepts.fits hfits hqueue
  rw [haccepts.queue] at hqueue
  obtain ⟨found, hfound, rfl⟩ := Option.map_eq_some_iff.mp hqueue
  have hcapacity : found.capacity = capacity := (hsized hfound).1
  exact ⟨hcapacity, hcapacity ▸ hlength⟩

end Registry

namespace Manager

variable {manager : Manager} {capacity : Nat}

/-- Queues are made with a certain capacity, and there are none of another. -/
structure Sized (capacity : Nat) (manager : Manager) : Prop where
  queues : manager.registry.Sized capacity
  capacity : manager.capacity = capacity

theorem sized_subscribe (hsized : manager.Sized capacity) (user : Identifier) :
    (manager.subscribe user).1.Sized capacity := by
  have hopened : (manager.registry.openQueue manager.capacity).1.Sized capacity := by
    rw [hsized.capacity]
    exact hsized.queues.openQueue
  have hregistered := hopened.of_accepts
    (Registry.accepts_register _ user manager.registry.queues.length)
  have hreleased := hregistered.changeQueue manager.registry.queues.length
    (fun queue => ⟨rfl, Nat.le_refl _⟩ : ∀ queue : Queue, queue.release.capacity = _ ∧ _)
  simp only [subscribe]
  split
  · exact ⟨hreleased, hsized.capacity⟩
  · refine ⟨hreleased.changeQueue _ fun queue => ⟨rfl, ?_⟩, hsized.capacity⟩
    exact Nat.zero_le _

theorem sized_receive (hsized : manager.Sized capacity) (subscription : Subscription) :
    (manager.receive subscription).1.Sized capacity := by
  rcases manager.receive_eq subscription with hsame | htaken
  · rwa [hsame]
  · rw [htaken]
    refine ⟨hsized.queues.changeQueue _ fun queue => ⟨rfl, ?_⟩, hsized.capacity⟩
    simp

theorem sized_receiveAll (hsized : manager.Sized capacity) (subscription : Subscription) :
    (manager.receiveAll subscription).1.Sized capacity := by
  rcases manager.receiveAll_eq subscription with hsame | htaken
  · rwa [hsame]
  · rw [htaken]
    refine ⟨hsized.queues.changeQueue _ fun queue => ⟨rfl, ?_⟩, hsized.capacity⟩
    exact Nat.zero_le _

theorem sized_drop (hsized : manager.Sized capacity) (subscription : Subscription) :
    (manager.drop subscription).Sized capacity := by
  have hdropped : (manager.registry.changeQueue subscription.queue Queue.dropReceiver).Sized
      capacity := by
    refine hsized.queues.changeQueue _ fun queue => ⟨rfl, ?_⟩
    exact Nat.zero_le _
  exact ⟨hdropped.of_queues_eq (Registry.queues_unregister ..), hsized.capacity⟩

theorem sized_send (hsized : manager.Sized capacity) (user : Identifier) (message : Message) :
    (manager.send user message).1.Sized capacity :=
  ⟨hsized.queues.of_accepts (Registry.accepts_send _ user message), hsized.capacity⟩

theorem sized_broadcast (hsized : manager.Sized capacity) (message : Message) :
    (manager.broadcast message).1.Sized capacity :=
  ⟨hsized.queues.of_accepts (Registry.accepts_broadcastTo message _ _), hsized.capacity⟩

theorem sized_handle (hsized : manager.Sized capacity) (event : Event) :
    (manager.handle event).Sized capacity := by
  rw [handle]
  cases event.recipient with
  | user user => exact sized_send hsized user _
  | everyone => exact sized_broadcast hsized _

end Manager

namespace Ledger

variable {ledger : Ledger} {capacity : Nat}

theorem sized_drop (hsized : ledger.manager.Sized capacity) (holding : Holding) :
    (ledger.drop holding).manager.Sized capacity := by
  rw [Ledger.drop]
  split
  · exact hsized
  · exact Manager.sized_drop hsized holding.subscription

theorem sized_settle (hsized : ledger.manager.Sized capacity) (holding : Holding) (isEnded : Bool) :
    (ledger.settle holding isEnded).manager.Sized capacity := by
  rw [Ledger.settle]
  split
  · exact sized_drop hsized holding
  · exact hsized

theorem sized_step (hsized : ledger.manager.Sized capacity) (operation : Operation) :
    (ledger.step operation).manager.Sized capacity := by
  cases operation with
  | subscribe user =>
      have hsubscribed := Manager.sized_subscribe hsized user
      simp only [step, Ledger.subscribe]
      split <;> exact hsubscribed
  | receive id =>
      refine found_of (·.manager.Sized capacity) hsized fun holding _ _ => ?_
      exact sized_settle (Manager.sized_receive hsized holding.subscription) holding _
  | intoStream id => exact hsized
  | read id =>
      refine found_of (·.manager.Sized capacity) hsized fun holding _ _ => ?_
      rw [Ledger.read]
      split
      · exact sized_settle (Manager.sized_receiveAll hsized holding.subscription) holding _
      · exact hsized
  | drop id =>
      exact found_of (·.manager.Sized capacity) hsized fun holding _ _ => sized_drop hsized holding
  | send user message => exact Manager.sized_send hsized user message
  | broadcast message => exact Manager.sized_broadcast hsized message
  | handle event => exact Manager.sized_handle hsized event
  | sweep => exact Manager.sized_broadcast hsized .heartbeat

theorem sized_run (hsized : ledger.manager.Sized capacity) (operations : List Operation) :
    (ledger.run operations).manager.Sized capacity := by
  induction operations generalizing ledger with
  | nil => exact hsized
  | cons operation rest ih => exact ih (sized_step hsized operation)

theorem sized_start (capacity : Nat) : (start capacity).manager.Sized (max capacity 1) where
  capacity := rfl
  queues := by
    intro key queue hqueue
    nomatch hqueue

end Ledger

end Herald.Live
