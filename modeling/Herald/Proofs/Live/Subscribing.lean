import Herald.Live.Manager
import Herald.Proofs.Live.Pushing

/-!
Subscribing through a manager. The queue is new and has room for the first message, so that the
handshake succeeds; the connection that the user had before is told and replaced.
-/

namespace Herald.Live

theorem Queue.hasRoom_ofCapacity {capacity : Nat} (hcapacity : 1 ≤ capacity) :
    (Queue.ofCapacity capacity).hasRoom = true :=
  decide_eq_true hcapacity

namespace Registry

variable {registry : Registry} {user : Identifier} {key : QueueKey}

/-- Whether all connections have queues of the registry. -/
def Covered (registry : Registry) : Prop :=
  ∀ ⦃user : Identifier⦄ ⦃connection : Connection⦄, registry.connection? user = some connection →
    connection.queue < registry.queues.length

theorem connection?_expire (registry : Registry) (user other : Identifier) :
    (registry.expire user).connection? other = registry.connection? other := by
  rw [expire]
  cases registry.connection? user with
  | none => rfl
  | some connection => rfl

theorem queue?_expire (registry : Registry) (user : Identifier) (key : QueueKey) :
    (registry.expire user).queue? key =
      if key ∈ registry.keyOf user then (registry.queue? key).map (·.push .sessionExpired)
      else registry.queue? key := by
  rw [expire, keyOf]
  cases registry.connection? user with
  | none => exact (if_neg List.not_mem_nil).symm
  | some connection => exact queue?_changeQueue_push ..

theorem queue?_openQueue_self (registry : Registry) (capacity : Nat) :
    (registry.openQueue capacity).1.queue? registry.queues.length =
      some (Queue.ofCapacity capacity) :=
  List.getElem?_concat_length

theorem queue?_openQueue_of_lt (capacity : Nat) (hkey : key < registry.queues.length) :
    (registry.openQueue capacity).1.queue? key = registry.queue? key :=
  List.getElem?_append_left hkey

theorem not_mem_keyOf_of_covered (hcovered : registry.Covered) (user : Identifier) :
    registry.queues.length ∉ registry.keyOf user := by
  rw [keyOf]
  cases hconnection : registry.connection? user with
  | none => exact List.not_mem_nil
  | some connection =>
      intro hmem
      have hlength : registry.queues.length = connection.queue := List.mem_singleton.mp hmem
      exact Nat.ne_of_gt (hcovered hconnection) hlength

theorem keyOf_openQueue (registry : Registry) (capacity : Nat) (user : Identifier) :
    (registry.openQueue capacity).1.keyOf user = registry.keyOf user :=
  rfl

theorem queue?_expire_openQueue (hcovered : registry.Covered) (capacity : Nat)
    (user : Identifier) :
    ((registry.openQueue capacity).1.expire user).queue? registry.queues.length =
      some (Queue.ofCapacity capacity) := by
  rw [queue?_expire, keyOf_openQueue, if_neg (not_mem_keyOf_of_covered hcovered user),
    queue?_openQueue_self]

/-- The registry in which a queue with room has become the user's connection. -/
def registered (registry : Registry) (user : Identifier) (key : QueueKey) : Registry :=
  let id : ConnectionId := ⟨registry.issued + 1⟩
  ((registry.expire user).changeQueue key (·.push (.connected id.text))).install user ⟨id, key⟩

theorem issued_expire (registry : Registry) (user : Identifier) :
    (registry.expire user).issued = registry.issued := by
  rw [expire]
  cases registry.connection? user with
  | none => rfl
  | some connection => rfl

theorem users_expire (registry : Registry) (user : Identifier) :
    (registry.expire user).users = registry.users := by
  rw [expire]
  cases registry.connection? user with
  | none => rfl
  | some connection => rfl

theorem length_queues_expire (registry : Registry) (user : Identifier) :
    (registry.expire user).queues.length = registry.queues.length := by
  rw [expire]
  cases registry.connection? user with
  | none => rfl
  | some connection => exact length_queues_changeQueue ..

theorem register_of_room (hroom : (registry.expire user).hasRoom key = true) :
    registry.register user key = (registry.registered user key, .ok ⟨registry.issued + 1⟩) := by
  rw [register, offer, hroom]
  rfl

end Registry

namespace Manager

variable {manager : Manager} {user : Identifier}

def nextSubscription (manager : Manager) (user : Identifier) : Subscription :=
  ⟨user, ⟨manager.registry.issued + 1⟩, manager.registry.queues.length⟩

def subscribed (manager : Manager) (user : Identifier) : Manager :=
  let opened := (manager.registry.openQueue manager.capacity).1
  { manager with
    registry := (opened.registered user manager.registry.queues.length).changeQueue
      manager.registry.queues.length Queue.release }

theorem hasRoom_expire_openQueue (hcapacity : 1 ≤ manager.capacity)
    (hcovered : manager.registry.Covered) (user : Identifier) :
    ((manager.registry.openQueue manager.capacity).1.expire user).hasRoom
      manager.registry.queues.length = true := by
  rw [Registry.hasRoom_of_queue? (Registry.queue?_expire_openQueue hcovered _ user)]
  exact Queue.hasRoom_ofCapacity hcapacity

theorem subscribe_eq (hcapacity : 1 ≤ manager.capacity) (hcovered : manager.registry.Covered)
    (user : Identifier) :
    manager.subscribe user = (manager.subscribed user, .ok (manager.nextSubscription user)) := by
  have hregister := Registry.register_of_room (hasRoom_expire_openQueue hcapacity hcovered user)
  simp only [subscribe, Registry.openQueue] at hregister ⊢
  rw [hregister]
  rfl

theorem connection?_subscribed (manager : Manager) (user other : Identifier) :
    (manager.subscribed user).registry.connection? other =
      if other = user then
        some ⟨⟨manager.registry.issued + 1⟩, manager.registry.queues.length⟩
      else manager.registry.connection? other := by
  refine (Registry.connection?_install _ user other _).trans ?_
  congr 1
  exact Registry.connection?_expire _ user other

theorem queue?_subscribed (manager : Manager) (user : Identifier) (key : QueueKey) :
    (manager.subscribed user).registry.queue? key =
      let opened := (manager.registry.openQueue manager.capacity).1
      let greeting := Message.connected (ConnectionId.text ⟨manager.registry.issued + 1⟩)
      if manager.registry.queues.length = key then
        ((opened.expire user).queue? key).map fun queue => (queue.push greeting).release
      else (opened.expire user).queue? key := by
  refine (Registry.queue?_changeQueue ..).trans ?_
  by_cases hkey : manager.registry.queues.length = key
  · simp only [if_pos hkey]
    refine (congrArg (Option.map Queue.release)
      ((Registry.queue?_changeQueue ..).trans (if_pos hkey))).trans ?_
    exact Option.map_map ..
  · simp only [if_neg hkey]
    exact (Registry.queue?_changeQueue ..).trans (if_neg hkey)

theorem queue?_subscribed_self (hcapacity : 1 ≤ manager.capacity)
    (hcovered : manager.registry.Covered) (user : Identifier) :
    (manager.subscribed user).registry.queue? manager.registry.queues.length =
      some ⟨manager.capacity, [.connected (ConnectionId.text ⟨manager.registry.issued + 1⟩)],
        .opened, false⟩ := by
  rw [queue?_subscribed]
  simp only [if_true]
  rw [Registry.queue?_expire_openQueue hcovered, Option.map_some, Queue.push,
    if_pos (Queue.hasRoom_ofCapacity hcapacity)]
  rfl

theorem queue?_subscribed_of_lt {key : QueueKey} (hkey : key < manager.registry.queues.length)
    (user : Identifier) :
    (manager.subscribed user).registry.queue? key =
      if key ∈ manager.registry.keyOf user then
        (manager.registry.queue? key).map (·.push .sessionExpired)
      else manager.registry.queue? key := by
  rw [queue?_subscribed]
  simp only [if_neg (Nat.ne_of_gt hkey)]
  rw [Registry.queue?_expire, Registry.keyOf_openQueue, Registry.queue?_openQueue_of_lt _ hkey]

theorem issued_subscribed (manager : Manager) (user : Identifier) :
    (manager.subscribed user).registry.issued = manager.registry.issued + 1 :=
  congrArg (· + 1) (Registry.issued_expire ..)

theorem length_queues_subscribed (manager : Manager) (user : Identifier) :
    (manager.subscribed user).registry.queues.length = manager.registry.queues.length + 1 := by
  refine (Registry.length_queues_changeQueue ..).trans ?_
  refine (Registry.length_queues_changeQueue ..).trans ?_
  refine (Registry.length_queues_expire ..).trans ?_
  exact List.length_append

theorem nodup_users_subscribed (husers : manager.registry.users.Nodup) (user : Identifier) :
    (manager.subscribed user).registry.users.Nodup := by
  refine Registry.nodup_users_install ?_ user _
  have hexpire := Registry.users_expire (manager.registry.openQueue manager.capacity).1 user
  exact hexpire.symm ▸ husers

end Manager

end Herald.Live
