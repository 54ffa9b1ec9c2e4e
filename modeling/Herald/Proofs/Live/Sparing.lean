import Herald.Proofs.Live.Additions
import Herald.Proofs.Live.Retirement

/-!
What opening a stream leaves alone, whatever the registry: the entries of all other users, and every
queue but that of the connection the user had before.
-/

namespace Herald.Live

namespace Registry

variable {user : Identifier} {before registry : Registry} {key : QueueKey}

/-- No entry but the user's own was touched, and no queue but that of the user's entry. -/
structure Spares (user : Identifier) (before after : Registry) : Prop where
  entries : after.entries.filter (·.1 ≠ user) = before.entries.filter (·.1 ≠ user)
  queue : ∀ key, key < before.queues.length → key ∉ before.keyOf user →
    after.queue? key = before.queue? key

theorem Spares.refl (user : Identifier) (registry : Registry) : registry.Spares user registry :=
  ⟨rfl, fun _ _ _ => rfl⟩

theorem spares_register (registry : Registry) (user : Identifier) (capacity : Nat) :
    Spares user registry
      ((registry.openQueue capacity).1.register user registry.queues.length).1 where
  entries := by
    have hopened : (registry.openQueue capacity).1.entries = registry.entries := rfl
    rw [entries_register, hopened, List.filter_append, List.filter_filter]
    split
    · simp
    · simp
  queue key hlength hkey := by
    rw [queue?_register, queue?_changeQueue, if_neg (Nat.ne_of_gt hlength), queue?_expire,
      keyOf_openQueue, if_neg hkey, queue?_openQueue_of_lt capacity hlength]

/-- The queues that were opened since are no one's. -/
theorem Spares.changeQueue (hspares : Spares user before registry)
    (hnew : before.queues.length ≤ key) (change : Queue → Queue) :
    Spares user before (registry.changeQueue key change) where
  entries := hspares.entries
  queue other hlength hother := by
    rw [queue?_changeQueue, if_neg (Nat.ne_of_gt (Nat.lt_of_lt_of_le hlength hnew))]
    exact hspares.queue other hlength hother

theorem Spares.unregister (hspares : Spares user before registry) (id : ConnectionId) :
    Spares user before (registry.unregister user id).1 where
  entries := by
    by_cases hid : registry.IsConnection user id
    · rw [unregister_of_isConnection hid, ← hspares.entries, remove, List.filter_filter]
      simp only [Bool.and_self]
    · rw [unregister_of_not_isConnection hid]
      exact hspares.entries
  queue other hlength hother := by
    rw [queue?_unregister]
    exact hspares.queue other hlength hother

end Registry

namespace Manager

open Registry (Spares)

theorem spares_subscribe (manager : Manager) (user : Identifier) :
    Spares user manager.registry (manager.subscribe user).1.registry := by
  have hregistered := Registry.spares_register manager.registry user manager.capacity
  have hreleased := hregistered.changeQueue (Nat.le_refl _) Queue.release
  rcases manager.registry_subscribe user with hsubscribed | hdropped
  · rw [hsubscribed]
    exact hreleased
  · rw [hdropped]
    exact hreleased.changeQueue (Nat.le_refl _) Queue.dropReceiver

theorem subscription_of_subscribe {manager : Manager} {user : Identifier}
    {subscription : Subscription} (hopened : (manager.subscribe user).2 = .ok subscription) :
    subscription.user = user ∧ subscription.queue = manager.registry.queues.length := by
  rw [subscribe] at hopened
  simp only [Registry.openQueue] at hopened
  split at hopened
  case h_1 =>
    cases hopened
    exact ⟨rfl, rfl⟩
  case h_2 => cases hopened

theorem spares_drop {manager : Manager} {before : Registry} {subscription : Subscription}
    (hspares : Spares subscription.user before manager.registry)
    (hnew : before.queues.length ≤ subscription.queue) :
    Spares subscription.user before (manager.drop subscription).registry :=
  (hspares.changeQueue hnew Queue.dropReceiver).unregister subscription.id

end Manager

end Herald.Live
