import Herald.Proofs.Live.Additions
import Herald.Proofs.Live.Retirement
import Mathlib.Data.List.Perm.Basic

/-!
What the queues of a registry accept. An operation offers messages to queues one after another. A queue
keeps those that it takes behind what waits already, and never more than its capacity; the entries whose
queues refuse are gone afterwards, and no others are.
-/

namespace Herald.Live

/-- The messages for a queue among messages for several queues, in their order. -/
def messagesFor (key : QueueKey) (messages : List (QueueKey × Message)) : List Message :=
  (messages.filter (·.1 = key)).map (·.2)

@[simp] theorem messagesFor_nil (key : QueueKey) : messagesFor key [] = [] := rfl

@[simp] theorem messagesFor_append (key : QueueKey) (front back : List (QueueKey × Message)) :
    messagesFor key (front ++ back) = messagesFor key front ++ messagesFor key back := by
  simp [messagesFor]

@[simp] theorem messagesFor_cons (key other : QueueKey) (message : Message)
    (rest : List (QueueKey × Message)) :
    messagesFor key ((other, message) :: rest) =
      (if other = key then [message] else []) ++ messagesFor key rest := by
  simp only [messagesFor, List.filter_cons]
  by_cases hkey : other = key <;> simp [hkey]

def Queue.followedBy (queue : Queue) (more : List Message) : Queue :=
  { queue with waiting := queue.waiting ++ more }

theorem Queue.push_eq (queue : Queue) (message : Message) :
    queue.push message = queue.followedBy (if queue.hasRoom then [message] else []) := by
  rw [push, followedBy]
  split <;> simp

namespace Registry

variable {registry before between after : Registry} {user : Identifier} {key : QueueKey}
  {connection : Connection} {message : Message} {accepted front back : List (QueueKey × Message)}

/-! Queues that take messages. -/

def Fits (registry : Registry) : Prop :=
  ∀ ⦃key : QueueKey⦄ ⦃queue : Queue⦄, registry.queue? key = some queue →
    queue.waiting.length ≤ queue.capacity

theorem fits_changeQueue (hfits : registry.Fits) (key : QueueKey) {change : Queue → Queue}
    (hchange : ∀ queue : Queue, queue.waiting.length ≤ queue.capacity →
      (change queue).waiting.length ≤ (change queue).capacity) :
    (registry.changeQueue key change).Fits := by
  intro other queue hqueue
  rw [queue?_changeQueue] at hqueue
  split at hqueue
  case isFalse => exact hfits hqueue
  case isTrue =>
    obtain ⟨found, hfound, rfl⟩ := Option.map_eq_some_iff.mp hqueue
    exact hchange found (hfits hfound)

theorem fits_openQueue (hfits : registry.Fits) (capacity : Nat) :
    (registry.openQueue capacity).1.Fits := by
  intro key queue hqueue
  have hmem := List.mem_of_getElem? hqueue
  rw [openQueue, List.mem_append, List.mem_singleton] at hmem
  obtain hmem | rfl := hmem
  · obtain ⟨other, hother⟩ := List.mem_iff_getElem?.mp hmem
    exact hfits hother
  · exact Nat.zero_le _

/-- The queues took the messages, in this order, and are otherwise the same. -/
structure Accepts (accepted : List (QueueKey × Message)) (before after : Registry) : Prop where
  queue : ∀ key,
    after.queue? key = (before.queue? key).map (·.followedBy (messagesFor key accepted))
  missing : ∀ key, before.queue? key = none → messagesFor key accepted = []
  fits : before.Fits → after.Fits

theorem accepts_of_queues_eq (hqueues : after.queues = before.queues) :
    Accepts [] before after where
  queue key := by
    simp [queue?, hqueues, Queue.followedBy]
  missing _ _ := rfl
  fits hfits key queue hqueue := by
    rw [queue?, hqueues] at hqueue
    exact hfits hqueue

theorem Accepts.trans (hfront : Accepts front before between) (hback : Accepts back between after) :
    Accepts (front ++ back) before after where
  queue key := by
    simp [hback.queue, hfront.queue, Queue.followedBy, Function.comp_def]
  missing key hnone := by
    have hnone' : between.queue? key = none := by
      simp [hfront.queue, hnone]
    simp [hfront.missing key hnone, hback.missing key hnone']
  fits := hback.fits ∘ hfront.fits

theorem Accepts.trans_of_queues_eq (hfront : Accepts accepted before between)
    (hqueues : after.queues = between.queues) : Accepts accepted before after := by
  simpa using hfront.trans (accepts_of_queues_eq hqueues)

theorem Accepts.waitingOn (haccepts : Accepts accepted before after) (key : QueueKey) :
    after.waitingOn key = before.waitingOn key ++ messagesFor key accepted := by
  rw [Registry.waitingOn, Registry.waitingOn, haccepts.queue]
  cases hqueue : before.queue? key with
  | none => simp [haccepts.missing key hqueue]
  | some queue => rfl

/-- The message, if the queue takes it when it is offered. -/
def tried (registry : Registry) (key : QueueKey) (message : Message) :
    List (QueueKey × Message) :=
  if (registry.offer key message).2 then [(key, message)] else []

theorem tried_eq (registry : Registry) (key : QueueKey) (message : Message) :
    registry.tried key message = if registry.hasRoom key then [(key, message)] else [] :=
  rfl

theorem accepts_offer (registry : Registry) (key : QueueKey) (message : Message) :
    Accepts (registry.tried key message) registry (registry.offer key message).1 where
  queue other := by
    rw [offer, queue?_changeQueue, tried_eq, hasRoom]
    by_cases hkey : key = other
    · subst hkey
      cases registry.queue? key with
      | none => simp
      | some queue => cases hroom : queue.hasRoom <;> simp [Queue.push_eq, hroom]
    · cases registry.queue? key with
      | none => simp [hkey, Queue.followedBy]
      | some queue => cases hroom : queue.hasRoom <;> simp [hkey, hroom, Queue.followedBy]
  missing other hnone := by
    have hroom : registry.hasRoom other = false := by
      simp [hasRoom, hnone]
    rw [tried_eq]
    by_cases hkey : key = other
    · simp [hkey, hroom]
    · cases registry.hasRoom key <;> simp [hkey]
  fits hfits := by
    apply fits_changeQueue hfits key
    intro queue hqueue
    rw [Queue.push]
    split
    case isFalse => exact hqueue
    case isTrue hroom =>
      simp only [Queue.hasRoom, Bool.and_eq_true, decide_eq_true_eq] at hroom
      simpa [Nat.succ_le_iff] using hroom.2

/-! What the operations offer. -/

/-- What the queue of a user's connection takes of a message. -/
def triedOn (registry : Registry) (user : Identifier) (message : Message) :
    List (QueueKey × Message) :=
  (registry.keyOf user).flatMap fun key => registry.tried key message

theorem triedOn_of_connected (hconnection : registry.connection? user = some connection)
    (message : Message) :
    registry.triedOn user message = registry.tried connection.queue message := by
  simp [triedOn, keyOf, hconnection]

theorem triedOn_of_not_connected (hnone : registry.connection? user = none) (message : Message) :
    registry.triedOn user message = [] := by
  simp [triedOn, keyOf, hnone]

theorem queues_settle (registry : Registry) (user : Identifier) (id : ConnectionId)
    (taken : Bool) : (registry.settle user id taken).1.queues = registry.queues := by
  rw [settle]
  cases taken with
  | true => rfl
  | false => exact queues_unregister registry user id

theorem accepts_deliver (registry : Registry) (user : Identifier) (connection : Connection)
    (message : Message) :
    Accepts (registry.tried connection.queue message) registry
      (registry.deliver user connection message).1 :=
  (accepts_offer registry connection.queue message).trans_of_queues_eq (queues_settle ..)

theorem accepts_send (registry : Registry) (user : Identifier) (message : Message) :
    Accepts (registry.triedOn user message) registry (registry.send user message).1 := by
  cases hconnection : registry.connection? user with
  | none =>
      rw [triedOn_of_not_connected hconnection, send_of_not_connected hconnection]
      exact accepts_of_queues_eq rfl
  | some connection =>
      rw [triedOn_of_connected hconnection, send_of_connected hconnection]
      exact accepts_deliver registry user connection message

theorem accepts_expire (registry : Registry) (user : Identifier) :
    Accepts (registry.triedOn user .sessionExpired) registry (registry.expire user) := by
  rw [expire]
  cases hconnection : registry.connection? user with
  | none =>
      rw [triedOn_of_not_connected hconnection]
      exact accepts_of_queues_eq rfl
  | some connection =>
      rw [triedOn_of_connected hconnection]
      exact accepts_offer registry connection.queue .sessionExpired

/-- What a registration offers: a farewell on the older connection, then a greeting on the new one. -/
def triedOnRegister (registry : Registry) (user : Identifier) (key : QueueKey) :
    List (QueueKey × Message) :=
  registry.triedOn user .sessionExpired ++
    (registry.expire user).tried key (.connected (ConnectionId.text ⟨registry.issued + 1⟩))

theorem accepts_register (registry : Registry) (user : Identifier) (key : QueueKey) :
    Accepts (registry.triedOnRegister user key) registry (registry.register user key).1 :=
  ((accepts_expire registry user).trans (accepts_offer _ key _)).trans_of_queues_eq
    (queues_register registry user key)

/-! Broadcasting. -/

/-- The entries that a broadcast visits, and whether their queues take the copies. -/
def visits (message : Message) :
    List (Identifier × Connection) → Registry → List ((Identifier × Connection) × Bool)
  | [], _ => []
  | (user, connection) :: rest, registry =>
    ((user, connection), (registry.offer connection.queue message).2) ::
      visits message rest (registry.deliver user connection message).1

/-- The visited entries whose queues took the copies, or refused them. -/
def visited (taken : Bool) (visits : List ((Identifier × Connection) × Bool)) :
    List (Identifier × Connection) :=
  (visits.filter (·.2 = taken)).map (·.1)

def copies (message : Message) (visits : List ((Identifier × Connection) × Bool)) :
    List (QueueKey × Message) :=
  (visited true visits).map fun entry => (entry.2.queue, message)

theorem accepts_broadcastTo (message : Message) (snapshot : List (Identifier × Connection))
    (registry : Registry) :
    Accepts (copies message (visits message snapshot registry)) registry
      (broadcastTo message snapshot registry).1 := by
  induction snapshot generalizing registry with
  | nil => exact accepts_of_queues_eq rfl
  | cons entry rest ih =>
      obtain ⟨user, connection⟩ := entry
      have hall := (accepts_deliver registry user connection message).trans (ih _)
      rw [broadcastTo_cons]
      rw [tried_eq] at hall
      cases hroom : registry.hasRoom connection.queue with
      | true => simpa [copies, visited, visits, offer, hroom] using hall
      | false => simpa [copies, visited, visits, offer, hroom] using hall

/-! The entries that are left. -/

/-- Without the entry of a user, the entries are the others. -/
theorem entries_remove_perm {entry : Identifier × Connection}
    {others : List (Identifier × Connection)} (husers : registry.users.Nodup)
    (hentries : registry.entries.Perm (entry :: others)) :
    (registry.remove entry.1).entries.Perm others := by
  have hnodup : (entry :: others).map Prod.fst |>.Nodup :=
    (hentries.map Prod.fst).nodup_iff.mp husers
  obtain ⟨hfresh, -⟩ := List.nodup_cons.mp hnodup
  have hothers : (entry :: others).filter (·.1 ≠ entry.1) = others := by
    rw [List.filter_cons_of_neg (by simp), List.filter_eq_self]
    intro other hother
    apply decide_eq_true
    intro huser
    exact hfresh (List.mem_map.mpr ⟨other, hother, huser⟩)
  rw [← hothers]
  exact hentries.filter _

theorem allKeys_perm_remove (husers : registry.users.Nodup) (user : Identifier) :
    registry.allKeys.Perm (registry.keyOf user ++ (registry.remove user).allKeys) := by
  cases hconnection : registry.connection? user with
  | none =>
      have hsame : (registry.remove user).entries = registry.entries := by
        apply List.filter_eq_self.mpr
        intro entry hentry
        apply decide_eq_true
        rintro rfl
        have hfound := connection?_of_mem_entries husers hentry
        simp [hconnection] at hfound
      simp [keyOf, hconnection, allKeys, hsame]
  | some connection =>
      have hperm := List.perm_cons_erase (mem_entries_of_connection? hconnection)
      have hrest := entries_remove_perm husers hperm
      have hall := (hperm.trans (hrest.symm.cons (user, connection))).map fun entry => entry.2.queue
      simpa [allKeys, keyOf, hconnection] using hall

theorem Shrinks.trans (hfront : Shrinks before between) (hback : Shrinks between after) :
    Shrinks before after :=
  ⟨hback.entries.trans hfront.entries, hback.length.trans hfront.length⟩

theorem Shrinks.nodup_users (hshrinks : Shrinks before after) (husers : before.users.Nodup) :
    after.users.Nodup :=
  husers.sublist (hshrinks.entries.map _)

theorem shrinks_deliver (registry : Registry) (user : Identifier) (connection : Connection)
    (message : Message) : Shrinks registry (registry.deliver user connection message).1 :=
  (shrinks_changeQueue registry connection.queue _).trans (shrinks_settle ..)

theorem shrinks_send (registry : Registry) (user : Identifier) (message : Message) :
    Shrinks registry (registry.send user message).1 := by
  cases hconnection : registry.connection? user with
  | none =>
      rw [send_of_not_connected hconnection]
      exact Shrinks.refl registry
  | some connection =>
      rw [send_of_connected hconnection]
      exact shrinks_deliver registry user connection message

theorem shrinks_broadcastTo (message : Message) (snapshot : List (Identifier × Connection))
    (registry : Registry) : Shrinks registry (broadcastTo message snapshot registry).1 := by
  induction snapshot generalizing registry with
  | nil => exact Shrinks.refl registry
  | cons entry rest ih => exact (shrinks_deliver registry entry.1 entry.2 message).trans (ih _)

theorem map_fst_visits (message : Message) (snapshot : List (Identifier × Connection))
    (registry : Registry) : (visits message snapshot registry).map (·.1) = snapshot := by
  induction snapshot generalizing registry with
  | nil => rfl
  | cons entry rest ih => simp [visits, ih]

theorem visited_perm (message : Message) (snapshot : List (Identifier × Connection))
    (registry : Registry) :
    (visited true (visits message snapshot registry) ++
      visited false (visits message snapshot registry)).Perm snapshot := by
  have hparts := (List.filter_append_perm (fun visit => decide (visit.2 = true))
    (visits message snapshot registry)).map (·.1)
  simpa [visited, map_fst_visits] using hparts

/-- After a broadcast to some entries, those that took their copies are left, besides the others. -/
theorem entries_broadcastTo_perm {snapshot others : List (Identifier × Connection)}
    (husers : registry.users.Nodup) (hentries : registry.entries.Perm (snapshot ++ others))
    (message : Message) :
    (broadcastTo message snapshot registry).1.entries.Perm
      (visited true (visits message snapshot registry) ++ others) := by
  induction snapshot generalizing registry others with
  | nil => exact hentries
  | cons entry rest ih =>
      obtain ⟨user, connection⟩ := entry
      have hnodup := (shrinks_deliver registry user connection message).nodup_users husers
      have hconnection : registry.connection? user = some connection :=
        connection?_of_mem_entries husers (hentries.mem_iff.mpr (by simp))
      rw [broadcastTo_cons]
      cases hroom : registry.hasRoom connection.queue with
      | true =>
          -- an entry that took its copy is one of the others for the visits that follow
          have hleft : (registry.deliver user connection message).1.entries.Perm
              (rest ++ (user, connection) :: others) := by
            rw [deliver_of_room hroom]
            exact hentries.trans List.perm_middle.symm
          simpa [visits, visited, offer, hroom] using (ih hnodup hleft).trans List.perm_middle
      | false =>
          have hleft : (registry.deliver user connection message).1.entries.Perm
              (rest ++ others) := by
            rw [deliver_of_no_room hconnection hroom]
            exact @entries_remove_perm registry (user, connection) _ husers hentries
          simpa [visits, visited, offer, hroom] using ih hnodup hleft

theorem broadcastTo_snd (message : Message) (snapshot : List (Identifier × Connection))
    (registry : Registry) :
    (broadcastTo message snapshot registry).2 =
      (visited true (visits message snapshot registry)).length := by
  induction snapshot generalizing registry with
  | nil => rfl
  | cons entry rest ih =>
      obtain ⟨user, connection⟩ := entry
      have hrest := ih (registry.deliver user connection message).1
      have hdelivery : (registry.deliver user connection message).2 =
          if registry.hasRoom connection.queue then .sent else .evicted := by
        rw [deliver, settle]
        split <;> rfl
      change (if (registry.deliver user connection message).2 = .sent then
          (broadcastTo message rest (registry.deliver user connection message).1).2 + 1
        else (broadcastTo message rest (registry.deliver user connection message).1).2) = _
      rw [hrest, hdelivery]
      cases hroom : registry.hasRoom connection.queue <;> simp [visits, visited, offer, hroom]

end Registry

end Herald.Live
