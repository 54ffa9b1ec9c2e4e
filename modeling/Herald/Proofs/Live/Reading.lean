import Herald.Live.Manager
import Herald.Proofs.Live.Registry

/-!
Reading subscriptions and dropping them. Reading only takes messages off the subscription's queue,
and the end comes once nothing is queued and nothing can be pushed any more.
-/

namespace Herald.Live

theorem Queue.take_snd (queue : Queue) :
    queue.take.2 = { queue with waiting := queue.waiting.tail } := by
  obtain ⟨capacity, waiting, receiver, isHeld⟩ := queue
  cases waiting with
  | nil => rfl
  | cons message rest => rfl

namespace Registry

def withWaiting (registry : Registry) (key : QueueKey) (take : List Message → List Message) :
    Registry :=
  registry.changeQueue key fun queue => { queue with waiting := take queue.waiting }

theorem take_of_queue? {registry : Registry} {key : QueueKey} {queue : Queue}
    (hqueue : registry.queue? key = some queue) :
    registry.take key = (registry.withWaiting key List.tail, queue.take.1) := by
  rw [take, hqueue, withWaiting]
  simp only [Queue.take_snd]

theorem isEnded_of_queue? {registry : Registry} {key : QueueKey} {queue : Queue}
    (hqueue : registry.queue? key = some queue) (hheld : queue.isHeld = false) :
    registry.isEnded key = true ↔
      queue.receiver ≠ .opened ∨ ∀ entry ∈ registry.entries, entry.2.queue ≠ key := by
  rw [isEnded, hqueue]
  simp [hheld]

theorem queue?_withWaiting_of_ne {registry : Registry} {key other : QueueKey} (hkey : key ≠ other)
    (take : List Message → List Message) :
    (registry.withWaiting key take).queue? other = registry.queue? other := by
  rw [withWaiting, queue?_changeQueue, if_neg hkey]

theorem queue?_withWaiting_self {registry : Registry} {key : QueueKey} {queue : Queue}
    (hqueue : registry.queue? key = some queue) (take : List Message → List Message) :
    (registry.withWaiting key take).queue? key =
      some { queue with waiting := take queue.waiting } := by
  rw [withWaiting, queue?_changeQueue, if_pos rfl, hqueue, Option.map_some]

end Registry

namespace Manager

variable {manager : Manager} {subscription : Subscription} {queue : Queue}

theorem receive_of_nil (hqueue : manager.registry.queue? subscription.queue = some queue)
    (hwaiting : queue.waiting = []) :
    manager.receive subscription =
      (manager, if manager.registry.isEnded subscription.queue then .ended else .pending) := by
  have htake : queue.take.1 = none := by
    rw [Queue.take, hwaiting]
  rw [receive, Registry.take_of_queue? hqueue, htake]

theorem receive_of_cons {message : Message} {rest : List Message}
    (hqueue : manager.registry.queue? subscription.queue = some queue)
    (hwaiting : queue.waiting = message :: rest) :
    manager.receive subscription =
      ({ manager with registry := manager.registry.withWaiting subscription.queue List.tail },
        .message message) := by
  have htake : queue.take.1 = some message := by
    rw [Queue.take, hwaiting]
  rw [receive, Registry.take_of_queue? hqueue, htake]

/-- Reading one message changes at most what waits on the subscription's own queue. -/
theorem receive_eq (manager : Manager) (subscription : Subscription) :
    (manager.receive subscription).1 = manager ∨
      (manager.receive subscription).1 =
        { manager with registry := manager.registry.withWaiting subscription.queue List.tail } := by
  cases hqueue : manager.registry.queue? subscription.queue with
  | none =>
      rw [receive, Registry.take, hqueue]
      exact .inl rfl
  | some queue =>
      cases hwaiting : queue.waiting with
      | nil =>
          rw [receive_of_nil hqueue hwaiting]
          exact .inl rfl
      | cons message rest =>
          rw [receive_of_cons hqueue hwaiting]
          exact .inr rfl

theorem receiveAll_of_queue? (hqueue : manager.registry.queue? subscription.queue = some queue) :
    manager.receiveAll subscription =
      ({ manager with registry := manager.registry.withWaiting subscription.queue fun _ => [] },
        queue.waiting, manager.registry.isEnded subscription.queue) := by
  rw [receiveAll, hqueue]
  rfl

theorem receiveAll_eq (manager : Manager) (subscription : Subscription) :
    (manager.receiveAll subscription).1 = manager ∨
      (manager.receiveAll subscription).1 =
        { manager with
          registry := manager.registry.withWaiting subscription.queue fun _ => [] } := by
  cases hqueue : manager.registry.queue? subscription.queue with
  | none =>
      rw [receiveAll, hqueue]
      exact .inl rfl
  | some queue =>
      rw [receiveAll_of_queue? hqueue]
      exact .inr rfl

end Manager

end Herald.Live
