import Herald.Proofs.Live.Account

/-!
Registering any queue for a user: one of the user's own, of other users, or of none, which may be full or
take no more. The older connection is told first, and that may use up the room which the greeting on the
new one needs; whichever way that goes, the older connection's sending end is let go.
-/

namespace Herald.Live

namespace Registry

variable {registry : Registry} {user : Identifier} {key : QueueKey}

/-- Whether a queue is open and has room for a message behind those that it has just been told. -/
def takesAfter (registry : Registry) (told : List (QueueKey × Message)) (key : QueueKey) : Bool :=
  (registry.queue? key).any fun queue =>
    queue.receiver = .opened && queue.waiting.length + (messagesFor key told).length < queue.capacity

/-- What the connection that a user has is told when another one is to replace it. -/
def farewell (registry : Registry) (user : Identifier) : List (QueueKey × Message) :=
  match registry.connection? user with
  | some connection =>
    if registry.takesAfter [] connection.queue then [(connection.queue, .sessionExpired)] else []
  | none => []

def greeting (registry : Registry) (key : QueueKey) : QueueKey × Message :=
  (key, .connected (ConnectionId.text ⟨registry.issued + 1⟩))

end Registry

namespace Account

theorem after_append (earlier later : List Act) :
    after (earlier ++ later) = later.foldl enter (after earlier) :=
  List.foldl_append

end Account

end Herald.Live
