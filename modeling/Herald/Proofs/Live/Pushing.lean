import Herald.Proofs.Live.Registry

/-!
Pushing a message on the queues of connections. Sending pushes it on the queue of one user,
broadcasting on the queues of all; either way the queues without room keep what they hold, and their
connections are removed.
-/

namespace Herald.Live

theorem Queue.waiting_push (queue : Queue) (message : Message) :
    (queue.push message).waiting =
      queue.waiting ++ if queue.hasRoom then [message] else [] := by
  rw [push]
  split
  · rfl
  · exact (List.append_nil _).symm

namespace Registry

variable {registry before between after : Registry} {user : Identifier}
  {connection : Connection} {keys front back : List QueueKey} {message : Message}

/-- Whether the connections of different users have different queues. -/
def Separate (registry : Registry) : Prop :=
  ∀ ⦃user other : Identifier⦄ ⦃connection foreign : Connection⦄,
    registry.connection? user = some connection → registry.connection? other = some foreign →
      connection.queue = foreign.queue → user = other

/-- Whether pushing on the queues with the keys leaves a connection in place. -/
def keeps (registry : Registry) (keys : List QueueKey) (connection : Connection) : Bool :=
  connection.queue ∉ keys || registry.hasRoom connection.queue

/-- The message was pushed on the queues with the keys. -/
structure Pushed (keys : List QueueKey) (message : Message) (before after : Registry) : Prop where
  connection : ∀ user, after.connection? user = (before.connection? user).filter (before.keeps keys)
  queue : ∀ key, after.queue? key =
    if key ∈ keys then (before.queue? key).map (·.push message) else before.queue? key
  users : after.users.Sublist before.users
  issued : after.issued = before.issued
  length : after.queues.length = before.queues.length

theorem keeps_of_not_mem (hmem : connection.queue ∉ keys) :
    registry.keeps keys connection = true := by
  rw [keeps, decide_eq_true hmem, Bool.true_or]

theorem keeps_of_mem (hmem : connection.queue ∈ keys) :
    registry.keeps keys connection = registry.hasRoom connection.queue := by
  rw [keeps, decide_eq_false (not_not_intro hmem), Bool.false_or]

theorem filter_keeps_of_forall {found : Option Connection}
    (hkeeps : ∀ connection, found = some connection → registry.keeps keys connection = true) :
    found.filter (registry.keeps keys) = found := by
  cases found with
  | none => rfl
  | some connection => rw [Option.filter_some, if_pos (hkeeps connection rfl)]

theorem filter_keeps_of_hasRoom (hroom : ∀ key ∈ keys, registry.hasRoom key = true)
    (found : Option Connection) : found.filter (registry.keeps keys) = found := by
  apply filter_keeps_of_forall
  intro connection _
  by_cases hmem : connection.queue ∈ keys
  · rw [keeps_of_mem hmem]
    exact hroom _ hmem
  · exact keeps_of_not_mem hmem

theorem Pushed.refl (message : Message) (registry : Registry) :
    Pushed [] message registry registry where
  connection _ := (filter_keeps_of_hasRoom (fun _ hmem => absurd hmem List.not_mem_nil) _).symm
  queue _ := (if_neg List.not_mem_nil).symm
  users := List.Sublist.refl _
  issued := rfl
  length := rfl

theorem Pushed.queue_of_not_mem {key : QueueKey} (hpushed : Pushed keys message before after)
    (hkey : key ∉ keys) : after.queue? key = before.queue? key :=
  (hpushed.queue key).trans (if_neg hkey)

theorem Pushed.trans (hfront : Pushed front message before between)
    (hback : Pushed back message between after) (hdisjoint : ∀ key ∈ back, key ∉ front) :
    Pushed (front ++ back) message before after where
  connection := by
    intro user
    rw [hback.connection, hfront.connection, Option.filter_filter]
    congr 1
    funext connection
    by_cases hmem : connection.queue ∈ back
    · have hroom : between.hasRoom connection.queue = before.hasRoom connection.queue :=
        hasRoom_congr (hfront.queue_of_not_mem (hdisjoint _ hmem))
      rw [keeps_of_mem hmem, keeps_of_not_mem (hdisjoint _ hmem),
        keeps_of_mem (List.mem_append_right front hmem), hroom, Bool.true_and]
    · rw [keeps_of_not_mem hmem, Bool.and_true, keeps, keeps]
      simp only [List.mem_append, hmem, or_false]
  queue := by
    intro key
    by_cases hmem : key ∈ back
    · rw [hback.queue, if_pos hmem, hfront.queue_of_not_mem (hdisjoint _ hmem),
        if_pos (List.mem_append_right front hmem)]
    · rw [hback.queue_of_not_mem hmem, hfront.queue]
      simp only [List.mem_append, hmem, or_false]
  users := hback.users.trans hfront.users
  issued := hback.issued.trans hfront.issued
  length := hback.length.trans hfront.length

/-- It does not matter in which order the queues come. -/
theorem Pushed.of_perm {others : List QueueKey} (hpushed : Pushed keys message before after)
    (hperm : keys.Perm others) : Pushed others message before after where
  connection := by
    intro user
    rw [hpushed.connection]
    congr 1
    funext connection
    simp only [keeps, hperm.mem_iff]
  queue := by
    intro key
    rw [hpushed.queue]
    simp only [hperm.mem_iff]
  users := hpushed.users
  issued := hpushed.issued
  length := hpushed.length

theorem Pushed.separate (hpushed : Pushed keys message before after)
    (hseparate : before.Separate) : after.Separate := by
  intro user other connection foreign huser hother hqueue
  rw [hpushed.connection] at huser hother
  exact hseparate (Option.filter_eq_some_iff.mp huser).1 (Option.filter_eq_some_iff.mp hother).1
    hqueue

/-! One connection. -/

/-- Pushes a message on a connection, which is removed if its queue has no room. -/
def deliver (registry : Registry) (user : Identifier) (connection : Connection)
    (message : Message) : Registry × Delivery :=
  (registry.changeQueue connection.queue (·.push message)).settle user connection.id
    (registry.hasRoom connection.queue)

theorem send_of_connected (hconnection : registry.connection? user = some connection) :
    registry.send user message = registry.deliver user connection message := by
  rw [send, hconnection]
  rfl

theorem send_of_not_connected (hnone : registry.connection? user = none) :
    registry.send user message = (registry, .notConnected) := by
  rw [send, hnone]

theorem deliver_of_room (hroom : registry.hasRoom connection.queue = true) :
    registry.deliver user connection message =
      (registry.changeQueue connection.queue (·.push message), .sent) := by
  rw [deliver, hroom]
  rfl

theorem deliver_of_no_room (hconnection : registry.connection? user = some connection)
    (hroom : registry.hasRoom connection.queue = false) :
    registry.deliver user connection message =
      ((registry.changeQueue connection.queue (·.push message)).remove user, .evicted) := by
  have hid : (registry.changeQueue connection.queue (·.push message)).IsConnection user
      connection.id := isConnection_iff.mpr ⟨connection, hconnection, rfl⟩
  rw [deliver, hroom, settle, unregister_of_isConnection hid]
  rfl

theorem queue?_changeQueue_push (registry : Registry) (key other : QueueKey) (message : Message) :
    (registry.changeQueue key (·.push message)).queue? other =
      if other ∈ [key] then (registry.queue? other).map (·.push message)
      else registry.queue? other := by
  rw [queue?_changeQueue]
  simp only [List.mem_singleton, eq_comm]

theorem deliver_pushed (hconnection : registry.connection? user = some connection)
    (hseparate : registry.Separate) (message : Message) :
    Pushed [connection.queue] message registry
      (registry.deliver user connection message).1 := by
  cases hroom : registry.hasRoom connection.queue with
  | true =>
      rw [deliver_of_room hroom]
      refine ⟨?_, ?_, List.Sublist.refl _, rfl, length_queues_changeQueue ..⟩
      · intro other
        refine (filter_keeps_of_hasRoom ?_ _).symm
        intro key hkey
        rw [List.mem_singleton.mp hkey, hroom]
      · intro key
        exact queue?_changeQueue_push ..
  | false =>
      rw [deliver_of_no_room hconnection hroom]
      refine ⟨?_, ?_, ?_, rfl, length_queues_changeQueue ..⟩
      · intro other
        rw [connection?_remove]
        by_cases hother : other = user
        · subst hother
          rw [if_pos rfl, hconnection, Option.filter_some,
            keeps_of_mem (List.mem_singleton_self _), hroom]
          rfl
        · rw [if_neg hother]
          refine (filter_keeps_of_forall ?_).symm
          intro foreign hforeign
          apply keeps_of_not_mem
          intro hmem
          exact hother (hseparate hforeign hconnection (List.mem_singleton.mp hmem))
      · intro key
        exact queue?_changeQueue_push ..
      · rw [users_remove]
        exact List.filter_sublist

/-! Sending and broadcasting. -/

def isFull (registry : Registry) (key : QueueKey) : Bool :=
  match registry.queue? key with
  | some queue => queue.receiver = .opened && queue.capacity ≤ queue.waiting.length
  | none => false

def keyOf (registry : Registry) (user : Identifier) : List QueueKey :=
  ((registry.connection? user).map Connection.queue).toList

def allKeys (registry : Registry) : List QueueKey := registry.entries.map (·.2.queue)

theorem mem_allKeys_iff (husers : registry.users.Nodup) {key : QueueKey} :
    key ∈ registry.allKeys ↔ ∃ user connection,
      registry.connection? user = some connection ∧ connection.queue = key := by
  rw [allKeys, List.mem_map]
  constructor
  · rintro ⟨entry, hentry, rfl⟩
    exact ⟨_, _, connection?_of_mem_entries husers hentry, rfl⟩
  · rintro ⟨user, connection, hconnection, rfl⟩
    exact ⟨_, mem_entries_of_connection? hconnection, rfl⟩

theorem send_pushed (hseparate : registry.Separate) (user : Identifier) (message : Message) :
    Pushed (registry.keyOf user) message registry (registry.send user message).1 := by
  rw [keyOf]
  cases hconnection : registry.connection? user with
  | none =>
      rw [send_of_not_connected hconnection]
      exact Pushed.refl message registry
  | some connection =>
      rw [send_of_connected hconnection]
      exact deliver_pushed hconnection hseparate message

theorem broadcastTo_cons (message : Message) (user : Identifier) (connection : Connection)
    (rest : List (Identifier × Connection)) (registry : Registry) :
    (broadcastTo message ((user, connection) :: rest) registry).1 =
      (broadcastTo message rest (registry.deliver user connection message).1).1 :=
  rfl

theorem broadcastTo_pushed {snapshot : List (Identifier × Connection)} (message : Message)
    (husers : (snapshot.map Prod.fst).Nodup)
    (hregistered : ∀ entry ∈ snapshot, registry.connection? entry.1 = some entry.2)
    (hseparate : registry.Separate) :
    Pushed (snapshot.map (·.2.queue)) message registry
      (broadcastTo message snapshot registry).1 := by
  induction snapshot generalizing registry with
  | nil => exact Pushed.refl message registry
  | cons entry rest ih =>
      obtain ⟨user, connection⟩ := entry
      obtain ⟨hfresh, hrest⟩ := List.nodup_cons.mp husers
      have hconnection : registry.connection? user = some connection :=
        hregistered _ List.mem_cons_self
      have hdisjoint : ∀ entry ∈ rest, entry.2.queue ∉ [connection.queue] := by
        intro entry hentry hmem
        have hother := hregistered entry (List.mem_cons_of_mem _ hentry)
        have huser := hseparate hother hconnection (List.mem_singleton.mp hmem)
        exact hfresh (List.mem_map.mpr ⟨entry, hentry, huser⟩)
      have hdelivered := deliver_pushed hconnection hseparate message
      rw [broadcastTo_cons]
      refine hdelivered.trans (ih hrest ?_ (hdelivered.separate hseparate)) ?_
      · intro entry hentry
        rw [hdelivered.connection, hregistered entry (List.mem_cons_of_mem _ hentry),
          Option.filter_some, if_pos (keeps_of_not_mem (hdisjoint entry hentry))]
      · intro key hkey
        obtain ⟨entry, hentry, rfl⟩ := List.mem_map.mp hkey
        exact hdisjoint entry hentry

theorem broadcastIn_pushed (husers : registry.users.Nodup) (hseparate : registry.Separate)
    (order : Order) (message : Message) :
    Pushed registry.allKeys message registry (registry.broadcastIn order message).1 := by
  have hperm := order.perm registry.entries
  have hpushed : Pushed ((order.arrange registry.entries).map (·.2.queue)) message registry
      (registry.broadcastIn order message).1 := by
    refine broadcastTo_pushed message ((hperm.map Prod.fst).nodup_iff.mpr husers) ?_ hseparate
    intro entry hentry
    exact connection?_of_mem_entries husers (hperm.mem_iff.mp hentry)
  exact hpushed.of_perm (hperm.map _)

theorem broadcast_pushed (husers : registry.users.Nodup) (hseparate : registry.Separate)
    (message : Message) :
    Pushed registry.allKeys message registry (registry.broadcast message).1 :=
  broadcastIn_pushed husers hseparate .inserted message

end Registry

end Herald.Live
