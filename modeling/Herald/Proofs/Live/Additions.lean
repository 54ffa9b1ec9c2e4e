import Herald.Proofs.Live.Gains

/-!
What the operations of a manager add to its queues, taken over all of them: pushing adds copies of one
message, subscribing adds greetings and farewells, and reading and dropping add nothing.
-/

namespace Herald.Live

variable {registry before between after : Registry} {key : QueueKey} {message : Message}
  {user : Identifier} {connection : Connection} {holds : Message → Prop}

namespace Registry

/-- What has been added to all queues between two states of a registry. -/
def gains (before after : Registry) : List Message :=
  (List.range after.queues.length).flatMap fun key => gained key before after

/-- Every queue has what it had, with messages behind it of which the predicate holds. -/
def Adds (holds : Message → Prop) (before after : Registry) : Prop :=
  ∀ key, ∃ added, after.waitingOn key = before.waitingOn key ++ added ∧
    ∀ message ∈ added, holds message

theorem adds_of_waitingOn_eq (hsame : ∀ key, after.waitingOn key = before.waitingOn key) :
    Adds holds before after :=
  fun key => ⟨[], (hsame key).trans (List.append_nil _).symm,
    fun _ hmem => absurd hmem List.not_mem_nil⟩

theorem Adds.trans (hfront : Adds holds before between) (hback : Adds holds between after) :
    Adds holds before after := by
  intro key
  obtain ⟨front, hwaiting, hall⟩ := hfront key
  obtain ⟨back, hwaiting', hall'⟩ := hback key
  refine ⟨front ++ back, ?_, ?_⟩
  · rw [hwaiting', hwaiting, List.append_assoc]
  · intro message hmem
    rcases List.mem_append.mp hmem with hmem | hmem
    · exact hall message hmem
    · exact hall' message hmem

theorem Adds.holds_of_mem_gains (hadds : Adds holds before after) :
    ∀ message ∈ gains before after, holds message := by
  intro message hmem
  obtain ⟨key, _, hmem⟩ := List.mem_flatMap.mp hmem
  obtain ⟨added, hwaiting, hall⟩ := hadds key
  rw [gained_of_append hwaiting] at hmem
  exact hall message hmem

theorem gains_congr {other : Registry} (hqueues : after.queues = other.queues) :
    gains before after = gains before other := by
  simp only [gains, gained, waitingOn, queue?, hqueues]

theorem gains_of_length_le
    (hlength : ∀ key, (after.waitingOn key).length ≤ (before.waitingOn key).length) :
    gains before after = [] :=
  List.flatMap_eq_nil_iff.mpr fun key _ => List.drop_of_length_le (hlength key)

/-! Pushing. -/

theorem adds_push (registry : Registry) (key : QueueKey) (hmessage : holds message) :
    Adds holds registry (registry.changeQueue key (·.push message)) := by
  intro other
  refine ⟨_, waitingOn_changeQueue_push .., ?_⟩
  intro added hmem
  split at hmem
  · rw [List.mem_singleton.mp hmem]
    exact hmessage
  · exact absurd hmem List.not_mem_nil

theorem adds_settle (registry : Registry) (user : Identifier) (id : ConnectionId) (taken : Bool) :
    Adds holds registry (registry.settle user id taken).1 :=
  adds_of_waitingOn_eq fun _ => waitingOn_congr (queue?_settle ..)

theorem adds_broadcastTo (message : Message) (snapshot : List (Identifier × Connection))
    (registry : Registry) :
    Adds (· = message) registry (broadcastTo message snapshot registry).1 := by
  induction snapshot generalizing registry with
  | nil => exact adds_of_waitingOn_eq fun _ => rfl
  | cons entry rest ih =>
      obtain ⟨user, connection⟩ := entry
      rw [broadcastTo_cons]
      have hpushed : Adds (· = message) registry
          (registry.changeQueue connection.queue (·.push message)) := adds_push _ _ rfl
      exact (hpushed.trans (adds_settle _ _ _ _)).trans (ih _)

theorem waitingOn_send (hconnection : registry.connection? user = some connection)
    (message : Message) (key : QueueKey) :
    (registry.send user message).1.waitingOn key =
      registry.waitingOn key ++
        if connection.queue = key ∧ registry.hasRoom key = true then [message] else [] := by
  rw [send_of_connected hconnection, deliver, waitingOn_congr (queue?_settle ..),
    waitingOn_changeQueue_push]

theorem flatMap_singleton_sublist {keys : List QueueKey} (hkeys : keys.Nodup)
    (chosen : QueueKey) (room : QueueKey → Bool) (message : Message) :
    (keys.flatMap fun key =>
      if chosen = key ∧ room key = true then [message] else []).Sublist [message] := by
  induction keys with
  | nil => exact List.nil_sublist _
  | cons key keys ih =>
      obtain ⟨hfresh, hrest⟩ := List.nodup_cons.mp hkeys
      rw [List.flatMap_cons]
      split
      case isFalse => exact ih hrest
      case isTrue hboth =>
        have hnone : (keys.flatMap fun key =>
            if chosen = key ∧ room key = true then [message] else []) = [] := by
          refine List.flatMap_eq_nil_iff.mpr fun other hother => if_neg ?_
          rintro ⟨rfl, _⟩
          exact hfresh (hboth.1 ▸ hother)
        rw [hnone]
        exact List.Sublist.refl _

/-- Sending adds the message at most once, over all queues. -/
theorem gains_send_sublist (registry : Registry) (user : Identifier) (message : Message) :
    (gains registry (registry.send user message).1).Sublist [message] := by
  cases hconnection : registry.connection? user with
  | none =>
      rw [send_of_not_connected hconnection, gains_of_length_le fun _ => Nat.le_refl _]
      exact List.nil_sublist _
  | some connection =>
      have hgained : ∀ key, gained key registry (registry.send user message).1 =
          if connection.queue = key ∧ registry.hasRoom key = true then [message] else [] :=
        fun key => gained_of_append (waitingOn_send hconnection message key)
      simp only [gains, hgained]
      exact flatMap_singleton_sublist List.nodup_range _ _ _

/-! Registering. -/

theorem adds_expire (registry : Registry) (user : Identifier)
    (hfarewell : holds .sessionExpired) : Adds holds registry (registry.expire user) := by
  rw [expire]
  cases registry.connection? user with
  | none => exact adds_of_waitingOn_eq fun _ => rfl
  | some connection => exact adds_push _ _ hfarewell

theorem adds_register (registry : Registry) (user : Identifier) (key : QueueKey)
    (hfarewell : holds .sessionExpired) (hgreeting : ∀ name, holds (.connected name)) :
    Adds holds registry (registry.register user key).1 := by
  refine (adds_expire registry user hfarewell).trans fun other => ?_
  refine ⟨_, waitingOn_register .., ?_⟩
  intro message hmem
  split at hmem
  · rw [List.mem_singleton.mp hmem]
    exact hgreeting _
  · exact absurd hmem List.not_mem_nil

/-! Changes of one queue. -/

theorem waitingOn_changeQueue (registry : Registry) (key other : QueueKey)
    {change : Queue → Queue} (waiting : List Message → List Message) (hnil : waiting [] = [])
    (hchange : ∀ queue, (change queue).waiting = waiting queue.waiting) :
    (registry.changeQueue key change).waitingOn other =
      if key = other then waiting (registry.waitingOn other) else registry.waitingOn other := by
  rw [waitingOn, queue?_changeQueue, waitingOn]
  split
  · cases registry.queue? other with
    | none => exact hnil.symm
    | some queue => exact hchange queue
  · rfl

theorem waitingOn_release (registry : Registry) (key other : QueueKey) :
    (registry.changeQueue key Queue.release).waitingOn other = registry.waitingOn other := by
  have hrelease : ∀ queue : Queue, queue.release.waiting = id queue.waiting := fun _ => rfl
  rw [waitingOn_changeQueue registry key other id rfl hrelease]
  exact ite_self _

theorem gains_of_tail (registry : Registry) (key : QueueKey) :
    gains registry (registry.withWaiting key List.tail) = [] := by
  refine gains_of_length_le fun other => ?_
  rw [withWaiting, waitingOn_changeQueue registry key other List.tail rfl fun _ => rfl]
  split
  · rw [List.length_tail]
    exact Nat.sub_le _ _
  · exact Nat.le_refl _

theorem gains_of_emptied (registry : Registry) (key : QueueKey) {change : Queue → Queue}
    (hchange : ∀ queue, (change queue).waiting = []) :
    gains registry (registry.changeQueue key change) = [] := by
  refine gains_of_length_le fun other => ?_
  rw [waitingOn_changeQueue registry key other (fun _ => []) rfl hchange]
  split
  · exact Nat.zero_le _
  · exact Nat.le_refl _

/-- What is added to a queue is gone once its receiver is dropped. -/
theorem Adds.holds_of_mem_gains_dropReceiver (hadds : Adds holds before after)
    (key : QueueKey) :
    ∀ message ∈ gains before (after.changeQueue key Queue.dropReceiver), holds message := by
  intro message hmem
  obtain ⟨other, _, hmem⟩ := List.mem_flatMap.mp hmem
  obtain ⟨added, hwaiting, hall⟩ := hadds other
  rw [gained, waitingOn_changeQueue after key other (fun _ => []) rfl fun _ => rfl] at hmem
  split at hmem
  · rw [List.drop_nil] at hmem
    exact absurd hmem List.not_mem_nil
  · rw [hwaiting, List.drop_left] at hmem
    exact hall message hmem

end Registry

/-! The manager. -/

namespace Manager

theorem gains_handle_of_user {event : Event} (hrecipient : event.recipient = .user user)
    (manager : Manager) :
    (Registry.gains manager.registry (manager.handle event).registry).Sublist
      [.notification event] := by
  rw [handle, hrecipient]
  exact Registry.gains_send_sublist ..

theorem eq_of_mem_gains_handle (manager : Manager) (event : Event) :
    ∀ message ∈ Registry.gains manager.registry (manager.handle event).registry,
      message = .notification event := by
  cases hrecipient : event.recipient with
  | user user =>
      intro message hmem
      exact List.mem_singleton.mp ((gains_handle_of_user hrecipient manager).subset hmem)
  | everyone =>
      rw [handle, hrecipient]
      exact (Registry.adds_broadcastTo _ _ _).holds_of_mem_gains

theorem eq_of_mem_gains_sweep (manager : Manager) :
    ∀ message ∈ Registry.gains manager.registry manager.sweep.1.registry, message = .heartbeat :=
  (Registry.adds_broadcastTo _ _ _).holds_of_mem_gains

theorem registry_subscribe (manager : Manager) (user : Identifier) :
    let key := manager.registry.queues.length
    let registered := ((manager.registry.openQueue manager.capacity).1.register user key).1
    (manager.subscribe user).1.registry = registered.changeQueue key Queue.release ∨
      (manager.subscribe user).1.registry =
        (registered.changeQueue key Queue.release).changeQueue key Queue.dropReceiver := by
  rw [subscribe]
  simp only [Registry.openQueue]
  split
  · exact .inl rfl
  · exact .inr rfl

theorem holds_of_mem_gains_subscribe (manager : Manager) (user : Identifier)
    (hfarewell : holds .sessionExpired) (hgreeting : ∀ name, holds (.connected name)) :
    ∀ message ∈ Registry.gains manager.registry (manager.subscribe user).1.registry,
      holds message := by
  have hopened : Registry.Adds holds manager.registry
      (manager.registry.openQueue manager.capacity).1 :=
    Registry.adds_of_waitingOn_eq fun _ => Registry.waitingOn_openQueue ..
  have hregistered := hopened.trans
    (Registry.adds_register _ user manager.registry.queues.length hfarewell hgreeting)
  have hreleased := hregistered.trans (Registry.adds_of_waitingOn_eq
    fun _ => Registry.waitingOn_release _ manager.registry.queues.length _)
  rcases manager.registry_subscribe user with hsubscribed | hdropped
  · rw [hsubscribed]
    exact hreleased.holds_of_mem_gains
  · rw [hdropped]
    exact hreleased.holds_of_mem_gains_dropReceiver _

theorem gains_receive (manager : Manager) (subscription : Subscription) :
    Registry.gains manager.registry (manager.receive subscription).1.registry = [] := by
  rcases manager.receive_eq subscription with hsame | htaken
  · rw [hsame]
    exact Registry.gains_of_length_le fun _ => Nat.le_refl _
  · rw [htaken]
    exact Registry.gains_of_tail ..

theorem gains_receiveAll (manager : Manager) (subscription : Subscription) :
    Registry.gains manager.registry (manager.receiveAll subscription).1.registry = [] := by
  rcases manager.receiveAll_eq subscription with hsame | htaken
  · rw [hsame]
    exact Registry.gains_of_length_le fun _ => Nat.le_refl _
  · rw [htaken]
    exact Registry.gains_of_emptied _ _ fun _ => rfl

theorem gains_drop (manager : Manager) (subscription : Subscription) :
    Registry.gains manager.registry (manager.drop subscription).registry = [] := by
  have hqueues : (manager.drop subscription).registry.queues =
      (manager.registry.changeQueue subscription.queue Queue.dropReceiver).queues :=
    Registry.queues_unregister ..
  rw [Registry.gains_congr hqueues]
  exact Registry.gains_of_emptied _ _ fun _ => rfl

end Manager

end Herald.Live
