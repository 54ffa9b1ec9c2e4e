import Herald.Proofs.Live.Reading
import Herald.Proofs.Live.Subscribing

/-!
What is to be seen of a stream, apart from the ids of connections: its queue, and whether it is its
user's connection. It changes when that user opens a newer stream, and not when others do.
-/

namespace Herald.Live

/-- The message without the id of its connection. -/
def Message.anonymous : Message → Message
  | .connected _ => .connected ""
  | message => message

def Queue.anonymous (queue : Queue) : Queue :=
  { queue with waiting := queue.waiting.map Message.anonymous }

theorem Queue.hasRoom_anonymous (queue : Queue) : queue.anonymous.hasRoom = queue.hasRoom := by
  rw [hasRoom, anonymous, List.length_map, hasRoom]

theorem Queue.anonymous_push (queue : Queue) (message : Message) :
    (queue.push message).anonymous = queue.anonymous.push message.anonymous := by
  rw [push, push, hasRoom_anonymous]
  split
  · rw [anonymous, List.map_append]
    rfl
  · rfl

structure Sight where
  queue : Option Queue
  isCurrent : Bool

namespace Sight

/-- The stream of a user who just opened it. -/
def opened (capacity : Nat) : Sight := ⟨some ⟨capacity, [.connected ""], .opened, false⟩, true⟩

/-- The stream after its user opened a newer one. -/
def replaced (sight : Sight) : Sight :=
  ⟨if sight.isCurrent then sight.queue.map (·.push .sessionExpired) else sight.queue, false⟩

/-- All that a reader gets, and whether nothing more will come. -/
def content (sight : Sight) : List Message × Bool :=
  match sight.queue with
  | some queue => (queue.waiting, queue.receiver ≠ .opened || (!queue.isHeld && !sight.isCurrent))
  | none => ([], true)

end Sight

namespace Manager

variable {manager : Manager} {user other : Identifier} {key : QueueKey}

def sight (manager : Manager) (user : Identifier) (key : QueueKey) : Sight :=
  ⟨(manager.registry.queue? key).map Queue.anonymous, decide (key ∈ manager.registry.keyOf user)⟩

/-- The manager after a user opened a stream and let go of it at once. -/
def glimpsed (manager : Manager) (user : Identifier) : Manager :=
  (manager.subscribed user).drop (manager.nextSubscription user)

/-- The queue is there, and it is the connection of none but this user. -/
structure Reserves (manager : Manager) (user : Identifier) (key : QueueKey) : Prop where
  lt_length : key < manager.registry.queues.length
  foreign : ∀ other, other ≠ user → key ∉ manager.registry.keyOf other

structure Sound (manager : Manager) : Prop where
  capacity : 1 ≤ manager.capacity
  users : manager.registry.users.Nodup
  covered : manager.registry.Covered

theorem sound_ofCapacity (capacity : Nat) : (ofCapacity capacity).Sound where
  capacity := Nat.le_max_right capacity 1
  users := List.nodup_nil
  covered := nofun

theorem covered_iff {registry : Registry} : registry.Covered ↔
    ∀ user, ∀ key ∈ registry.keyOf user, key < registry.queues.length := by
  simp only [Registry.Covered, Registry.keyOf, Option.mem_toList, Option.map_eq_some_iff,
    forall_exists_index, and_imp, forall_apply_eq_imp_iff₂]

/-! Opening streams. -/

/-- A user opened a stream, which left the user with the connections that have these keys. -/
structure Reopened (user : Identifier) (keys : List QueueKey) (before after : Manager) : Prop where
  capacity : after.capacity = before.capacity
  length : after.registry.queues.length = before.registry.queues.length + 1
  users : before.registry.users.Nodup → after.registry.users.Nodup
  fresh : ∀ key ∈ keys, key = before.registry.queues.length
  keyOf : ∀ other, after.registry.keyOf other =
    if other = user then keys else before.registry.keyOf other
  queue : ∀ key, key < before.registry.queues.length → after.registry.queue? key =
    if key ∈ before.registry.keyOf user then
      (before.registry.queue? key).map (·.push .sessionExpired)
    else before.registry.queue? key

theorem reopened_subscribed (manager : Manager) (user : Identifier) :
    Reopened user [manager.registry.queues.length] manager (manager.subscribed user) where
  capacity := rfl
  length := length_queues_subscribed manager user
  users husers := nodup_users_subscribed husers user
  fresh _ hkey := List.mem_singleton.mp hkey
  keyOf other := by
    rw [Registry.keyOf, connection?_subscribed]
    split
    · rfl
    · rfl
  queue key hkey := queue?_subscribed_of_lt hkey user

theorem reopened_glimpsed (manager : Manager) (user : Identifier) :
    Reopened user [] manager (manager.glimpsed user) where
  capacity := rfl
  length := by
    refine (congrArg List.length (Registry.queues_unregister ..)).trans ?_
    exact (Registry.length_queues_changeQueue ..).trans (length_queues_subscribed manager user)
  users husers := by
    refine Registry.nodup_users_unregister ?_ _ _
    exact nodup_users_subscribed husers user
  fresh _ hkey := absurd hkey List.not_mem_nil
  keyOf other := by
    have hconnection := connection?_subscribed manager user
    have hid : (manager.subscribed user).registry.IsConnection user
        (manager.nextSubscription user).id := by
      rw [Registry.IsConnection, hconnection, if_pos rfl]
      rfl
    have hglimpsed : (manager.glimpsed user).registry.connection? other =
        if other = user then none else manager.registry.connection? other := by
      refine (Registry.connection?_unregister ..).trans ?_
      by_cases hother : other = user
      · rw [if_pos hother, if_pos ⟨hother, hid⟩]
      · rw [if_neg hother, if_neg fun hboth => hother hboth.1]
        exact (hconnection other).trans (if_neg hother)
    rw [Registry.keyOf, hglimpsed]
    split
    · rfl
    · rfl
  queue key hkey := by
    refine (Registry.queue?_unregister ..).trans ?_
    have hne : (manager.nextSubscription user).queue ≠ key := Nat.ne_of_gt hkey
    rw [Registry.queue?_changeQueue, if_neg hne, queue?_subscribed_of_lt hkey]

namespace Reopened

variable {keys : List QueueKey} {before after : Manager}

theorem sound (hreopened : Reopened user keys before after) (hsound : before.Sound) :
    after.Sound where
  capacity := hreopened.capacity ▸ hsound.capacity
  users := hreopened.users hsound.users
  covered := by
    have hcovered := covered_iff.mp hsound.covered
    rw [covered_iff]
    intro other key hkey
    rw [hreopened.keyOf] at hkey
    rw [hreopened.length]
    split at hkey
    case isTrue => exact hreopened.fresh key hkey ▸ Nat.lt_succ_self _
    case isFalse => exact Nat.lt_succ_of_lt (hcovered other key hkey)

theorem reserves (hreopened : Reopened user keys before after) (hkey : before.Reserves other key) :
    after.Reserves other key where
  lt_length := hreopened.length ▸ Nat.lt_succ_of_lt hkey.lt_length
  foreign third hthird hmem := by
    rw [hreopened.keyOf] at hmem
    split at hmem
    case isTrue => exact Nat.ne_of_lt hkey.lt_length (hreopened.fresh key hmem)
    case isFalse => exact hkey.foreign third hthird hmem

/-- The new queue can be the connection of none but the user who opened the stream. -/
theorem reserves_self (hreopened : Reopened user keys before after) (hsound : before.Sound) :
    after.Reserves user before.registry.queues.length where
  lt_length := hreopened.length ▸ Nat.lt_succ_self _
  foreign third hthird := by
    rw [hreopened.keyOf, if_neg hthird]
    exact Registry.not_mem_keyOf_of_covered hsound.covered third

theorem sight_self (hreopened : Reopened user keys before after)
    (hkey : key < before.registry.queues.length) :
    after.sight user key = (before.sight user key).replaced := by
  have hnew : key ∉ keys := fun hmem => Nat.ne_of_lt hkey (hreopened.fresh key hmem)
  rw [sight, hreopened.keyOf, if_pos rfl, decide_eq_false hnew, hreopened.queue key hkey, sight,
    Sight.replaced]
  by_cases hmem : key ∈ before.registry.keyOf user
  · simp only [if_pos hmem, decide_eq_true hmem, if_true, Option.map_map]
    congr 2
    funext queue
    exact Queue.anonymous_push queue .sessionExpired
  · simp only [if_neg hmem, decide_eq_false hmem, Bool.false_eq_true, if_false]

theorem sight_of_ne (hreopened : Reopened user keys before after) (hother : other ≠ user)
    (hkey : before.Reserves other key) : after.sight other key = before.sight other key := by
  rw [sight, hreopened.keyOf, if_neg hother, hreopened.queue key hkey.lt_length,
    if_neg (hkey.foreign user hother.symm), sight]

end Reopened

theorem sight_subscribed_self (hsound : manager.Sound) (user : Identifier) :
    (manager.subscribed user).sight user manager.registry.queues.length =
      .opened manager.capacity := by
  have hmem : manager.registry.queues.length ∈ (manager.subscribed user).registry.keyOf user := by
    rw [(reopened_subscribed manager user).keyOf, if_pos rfl]
    exact List.mem_singleton_self _
  rw [sight, queue?_subscribed_self hsound.capacity hsound.covered, decide_eq_true hmem]
  rfl

/-! Reading streams. -/

/-- What a reader gets of a subscription, without the ids of connections, and whether it has ended. -/
def content (manager : Manager) (subscription : Subscription) : List Message × Bool :=
  let (_, messages, isEnded) := manager.receiveAll subscription
  (messages.map Message.anonymous, isEnded)

/-- A queue that is reserved for a user is in the registry just if it is the user's connection. -/
theorem any_entries_eq (husers : manager.registry.users.Nodup) (hkey : manager.Reserves user key) :
    (manager.registry.entries.any fun entry => entry.2.queue = key) =
      decide (key ∈ manager.registry.keyOf user) := by
  have hmem {owner : Identifier} {connection : Connection}
      (hconnection : manager.registry.connection? owner = some connection) :
      connection.queue ∈ manager.registry.keyOf owner := by
    rw [Registry.keyOf, hconnection]
    exact List.mem_singleton_self _
  rw [Bool.eq_iff_iff, List.any_eq_true, decide_eq_true_eq]
  constructor
  · rintro ⟨⟨owner, connection⟩, hentry, hqueue⟩
    have hconnection := Registry.connection?_of_mem_entries husers hentry
    have hqueue := of_decide_eq_true hqueue
    subst hqueue
    by_cases howner : owner = user
    · exact howner ▸ hmem hconnection
    · exact absurd (hmem hconnection) (hkey.foreign owner howner)
  · intro hcurrent
    obtain ⟨connection, hconnection, rfl⟩ :=
      Option.map_eq_some_iff.mp (Option.mem_toList.mp hcurrent)
    exact ⟨_, Registry.mem_entries_of_connection? hconnection, decide_eq_true rfl⟩

theorem content_eq (hsound : manager.Sound) {subscription : Subscription}
    (hkey : manager.Reserves user subscription.queue) :
    manager.content subscription = (manager.sight user subscription.queue).content := by
  have hqueue : manager.registry.queue? subscription.queue = some _ :=
    List.getElem?_eq_getElem hkey.lt_length
  have hentries := any_entries_eq hsound.users hkey
  rw [content, receiveAll_of_queue? hqueue, sight, hqueue, Sight.content, Registry.isEnded, hqueue]
  simp only [Option.map_some, Queue.anonymous, ← hentries]

end Manager

end Herald.Live
