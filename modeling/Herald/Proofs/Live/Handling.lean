import Herald.Proofs.Event.Members
import Herald.Proofs.Live.Sparing

/-!
Whose streams an event goes to. What is sent to one user leaves the entries and queues of all others
alone; so an event is handled by sending it to a user, or by broadcasting it, just if that is its
recipient.
-/

namespace Herald.Live

variable {user other : Identifier} {before after registry : Registry} {event : Event}
  {message : Message}

namespace Registry

/-! Sending. -/

theorem spares_changeQueue {key : QueueKey} (hkey : key ∈ registry.keyOf user)
    (change : Queue → Queue) : Spares user registry (registry.changeQueue key change) where
  entries := rfl
  queue other _ hother := by
    have hne : key ≠ other := fun heq => hother (heq ▸ hkey)
    rw [queue?_changeQueue, if_neg hne]

theorem Spares.settle (hspares : Spares user before after) (id : ConnectionId) (taken : Bool) :
    Spares user before (after.settle user id taken).1 := by
  rw [Registry.settle]
  cases taken with
  | true => exact hspares
  | false => exact hspares.unregister id

theorem spares_send (registry : Registry) (user : Identifier) (message : Message) :
    Spares user registry (registry.send user message).1 := by
  cases hconnection : registry.connection? user with
  | none =>
      rw [send_of_not_connected hconnection]
      exact Spares.refl user registry
  | some connection =>
      have hkey : connection.queue ∈ registry.keyOf user := by
        rw [keyOf, hconnection]
        exact List.mem_singleton_self _
      rw [send_of_connected hconnection]
      exact (spares_changeQueue hkey _).settle connection.id _

end Registry

namespace Manager

/-! A manager with one stream tells apart to whom a message goes. -/

/-- A manager with a stream of one user, on which there is room for one more message. -/
def lone (user : Identifier) : Manager := ((ofCapacity 2).subscribe user).1

def greeting : Message := .connected (ConnectionId.text ⟨1⟩)

theorem connection?_lone (user other : Identifier) :
    (lone other).registry.connection? user = if user = other then some ⟨⟨1⟩, 0⟩ else none := by
  have hentries : (lone other).registry.entries = [(other, ⟨⟨1⟩, 0⟩)] := rfl
  rw [Registry.connection?, hentries, List.lookup_cons, List.lookup_nil]
  by_cases huser : user = other
  · rw [if_pos huser, beq_iff_eq.mpr huser]
  · rw [if_neg huser, beq_false_of_ne huser]

theorem waitingOn_send_lone (user other : Identifier) (message : Message) :
    ((lone other).send user message).1.registry.waitingOn 0 =
      if user = other then [greeting, message] else [greeting] := by
  have hconnection := connection?_lone user other
  by_cases huser : user = other
  · rw [if_pos huser] at hconnection ⊢
    exact Registry.waitingOn_send hconnection message 0
  · rw [if_neg huser] at hconnection ⊢
    rw [send, Registry.send_of_not_connected hconnection]
    rfl

theorem send_ne_broadcast (user : Identifier) (message : Message) :
    ∃ manager : Manager, (manager.send user message).1 ≠ (manager.broadcast message).1 := by
  obtain ⟨other, hother⟩ := exists_ne user
  refine ⟨lone other, fun hsame => ?_⟩
  have hwaiting := congrArg (fun manager => manager.registry.waitingOn 0) hsame
  simp only [waitingOn_send_lone, if_neg hother.symm] at hwaiting
  -- the stream holds its greeting alone after the send, and the message as well after the broadcast
  cases hwaiting

theorem eq_of_send_eq
    (hsame : ∀ manager : Manager, (manager.send user message).1 = (manager.send other message).1) :
    user = other := by
  have hwaiting := congrArg (fun manager => manager.registry.waitingOn 0) (hsame (lone user))
  simp only [waitingOn_send_lone, if_true] at hwaiting
  by_contra hne
  rw [if_neg (Ne.symm hne)] at hwaiting
  cases hwaiting

/-! Handling. -/

theorem handle_of_user (hrecipient : event.recipient = .user user) (manager : Manager) :
    manager.handle event = (manager.send user (.notification event)).1 := by
  rw [handle, hrecipient]

theorem handle_of_everyone (hrecipient : event.recipient = .everyone) (manager : Manager) :
    manager.handle event = (manager.broadcast (.notification event)).1 := by
  rw [handle, hrecipient]

theorem recipient_eq_user_iff_handle : event.recipient = .user user ↔
    ∀ manager : Manager, manager.handle event = (manager.send user (.notification event)).1 := by
  refine ⟨handle_of_user, fun hsent => ?_⟩
  cases hrecipient : event.recipient with
  | user other =>
      rw [eq_of_send_eq fun manager => (handle_of_user hrecipient manager).symm.trans (hsent manager)]
  | everyone =>
      obtain ⟨manager, hne⟩ := send_ne_broadcast user (.notification event)
      exact absurd ((hsent manager).symm.trans (handle_of_everyone hrecipient manager)) hne

theorem recipient_eq_everyone_iff_handle : event.recipient = .everyone ↔
    ∀ manager : Manager, manager.handle event = (manager.broadcast (.notification event)).1 := by
  refine ⟨handle_of_everyone, fun hbroadcast => ?_⟩
  cases hrecipient : event.recipient with
  | user user =>
      obtain ⟨manager, hne⟩ := send_ne_broadcast user (.notification event)
      exact absurd ((handle_of_user hrecipient manager).symm.trans (hbroadcast manager)) hne
  | everyone => rfl

theorem spares_handle (hrecipient : event.recipient = .user user) (manager : Manager) :
    manager.registry.Spares user (manager.handle event).registry := by
  rw [handle_of_user hrecipient]
  exact manager.registry.spares_send user _

end Manager

end Herald.Live
