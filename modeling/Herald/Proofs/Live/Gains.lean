import Herald.Proofs.Live.Reading
import Herald.Proofs.Live.Subscribing

/-!
What is added to the queues of a registry. A queue gains the messages that wait behind those that
waited before, whatever its reader takes meanwhile.
-/

namespace Herald.Live

namespace Registry

variable {registry before between after : Registry} {key other : QueueKey} {message : Message}
  {user : Identifier} {added : List Message}

/-- The messages that wait on a queue; none wait on one that is not there. -/
def waitingOn (registry : Registry) (key : QueueKey) : List Message :=
  ((registry.queue? key).map Queue.waiting).getD []

def gained (key : QueueKey) (before after : Registry) : List Message :=
  (after.waitingOn key).drop (before.waitingOn key).length

theorem waitingOn_congr (hqueue : after.queue? key = before.queue? key) :
    after.waitingOn key = before.waitingOn key := by
  rw [waitingOn, hqueue, waitingOn]

theorem waitingOn_of_queue? {queue : Queue} (hqueue : registry.queue? key = some queue) :
    registry.waitingOn key = queue.waiting := by
  rw [waitingOn, hqueue]
  rfl

theorem gained_of_append (happend : after.waitingOn key = before.waitingOn key ++ added) :
    gained key before after = added := by
  rw [gained, happend, List.drop_left]

theorem gained_of_waitingOn_eq (hsame : after.waitingOn key = before.waitingOn key) :
    gained key before after = [] := by
  rw [gained, hsame, List.drop_length]

/-! What the parts of the operations add. -/

theorem waitingOn_changeQueue_push (registry : Registry) (key other : QueueKey)
    (message : Message) :
    (registry.changeQueue key (·.push message)).waitingOn other =
      registry.waitingOn other ++
        if key = other ∧ registry.hasRoom other = true then [message] else [] := by
  rw [waitingOn, queue?_changeQueue, waitingOn, hasRoom]
  by_cases hkey : key = other
  · rw [if_pos hkey]
    cases registry.queue? other with
    | none => simp
    | some queue =>
        simp only [Option.map_some, Option.getD_some, hkey, true_and, Queue.waiting_push]
  · rw [if_neg hkey, if_neg (fun hboth => hkey hboth.1), List.append_nil]

theorem waitingOn_openQueue (registry : Registry) (capacity : Nat) (key : QueueKey) :
    (registry.openQueue capacity).1.waitingOn key = registry.waitingOn key := by
  rcases Nat.lt_trichotomy key registry.queues.length with hlt | rfl | hgt
  · exact waitingOn_congr (queue?_openQueue_of_lt capacity hlt)
  · rw [waitingOn_of_queue? (queue?_openQueue_self registry capacity), waitingOn, queue?,
      List.getElem?_eq_none (Nat.le_refl _)]
    rfl
  · have hlength : (registry.openQueue capacity).1.queues.length ≤ key := by
      rw [openQueue, List.length_append]
      exact hgt
    apply waitingOn_congr
    rw [queue?, queue?, List.getElem?_eq_none hlength, List.getElem?_eq_none (Nat.le_of_lt hgt)]

theorem waitingOn_expire (registry : Registry) (user : Identifier) (key : QueueKey) :
    (registry.expire user).waitingOn key =
      registry.waitingOn key ++
        if key ∈ registry.keyOf user ∧ registry.hasRoom key = true then [.sessionExpired]
        else [] := by
  rw [expire, keyOf]
  cases registry.connection? user with
  | none => simp
  | some connection =>
      refine (waitingOn_changeQueue_push ..).trans ?_
      simp only [Option.map_some, Option.toList_some, List.mem_singleton, eq_comm]

theorem waitingOn_unregister (registry : Registry) (user : Identifier) (id : ConnectionId)
    (key : QueueKey) : (registry.unregister user id).1.waitingOn key = registry.waitingOn key :=
  waitingOn_congr (queue?_unregister ..)

theorem queue?_settle (registry : Registry) (user : Identifier) (id : ConnectionId)
    (taken : Bool) (key : QueueKey) :
    (registry.settle user id taken).1.queue? key = registry.queue? key := by
  rw [settle]
  cases taken with
  | true => rfl
  | false => exact queue?_unregister ..

theorem queue?_take (registry : Registry) (key other : QueueKey) :
    (registry.take key).1.queue? other =
      if key = other then (registry.queue? other).map (·.take.2) else registry.queue? other := by
  rw [take]
  cases hqueue : registry.queue? key with
  | some queue => exact queue?_changeQueue ..
  | none =>
      by_cases hkey : key = other
      · rw [if_pos hkey, ← hkey, hqueue]
        rfl
      · exact (if_neg hkey).symm

theorem waitingOn_take (registry : Registry) (key other : QueueKey) :
    (registry.take key).1.waitingOn other =
      if key = other then (registry.waitingOn other).tail else registry.waitingOn other := by
  rw [waitingOn, queue?_take, waitingOn]
  by_cases hkey : key = other
  · rw [if_pos hkey, if_pos hkey]
    cases registry.queue? other with
    | none => rfl
    | some queue => exact congrArg Queue.waiting (Queue.take_snd queue)
  · rw [if_neg hkey, if_neg hkey]

theorem queues_register (registry : Registry) (user : Identifier) (key : QueueKey) :
    (registry.register user key).1.queues =
      ((registry.expire user).changeQueue key
        (·.push (.connected (ConnectionId.text ⟨registry.issued + 1⟩)))).queues := by
  rw [register, offer]
  cases (registry.expire user).hasRoom key with
  | true => rfl
  | false => rfl

theorem queue?_register (registry : Registry) (user : Identifier) (key other : QueueKey) :
    (registry.register user key).1.queue? other =
      ((registry.expire user).changeQueue key
        (·.push (.connected (ConnectionId.text ⟨registry.issued + 1⟩)))).queue? other := by
  rw [queue?, queues_register, queue?]

/-- Registering a queue greets on it, and bids farewell to the one it replaces. -/
theorem waitingOn_register (registry : Registry) (user : Identifier) (key other : QueueKey) :
    (registry.register user key).1.waitingOn other =
      (registry.expire user).waitingOn other ++
        if key = other ∧ (registry.expire user).hasRoom other = true then
          [.connected (ConnectionId.text ⟨registry.issued + 1⟩)]
        else [] := by
  rw [waitingOn_congr (queue?_register registry user key other), waitingOn_changeQueue_push]

theorem gained_take (registry : Registry) (key other : QueueKey) :
    gained other registry (registry.take key).1 = [] := by
  rw [gained, waitingOn_take]
  split
  · exact List.drop_of_length_le (by rw [List.length_tail]; exact Nat.sub_le _ _)
  · exact List.drop_length

end Registry

end Herald.Live
