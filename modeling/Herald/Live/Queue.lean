import Herald.Live.Message

/-!
Bounded queues of messages. Pushing never waits: a queue that is full, or whose receiver takes no
more, refuses the message. A closed receiver still reads what is queued; a dropped one reads nothing.
-/

namespace Herald.Live

inductive ReceiverState
  | opened
  | closed
  | dropped
  deriving DecidableEq, Repr

structure Queue where
  capacity : Nat
  waiting : List Message
  receiver : ReceiverState
  /-- Whether a sending end is held besides those in the registry. -/
  isHeld : Bool
  deriving DecidableEq, Repr

namespace Queue

def ofCapacity (capacity : Nat) : Queue := ⟨capacity, [], .opened, true⟩

def noCapacityText : String := "mpsc bounded channel requires buffer > 0"

def hasRoom (queue : Queue) : Bool :=
  queue.receiver = .opened && queue.waiting.length < queue.capacity

def push (queue : Queue) (message : Message) : Queue :=
  if queue.hasRoom then { queue with waiting := queue.waiting ++ [message] } else queue

def take (queue : Queue) : Option Message × Queue :=
  match queue.waiting with
  | [] => (none, queue)
  | message :: rest => (some message, { queue with waiting := rest })

def close (queue : Queue) : Queue :=
  match queue.receiver with
  | .opened => { queue with receiver := .closed }
  | _ => queue

def dropReceiver (queue : Queue) : Queue := { queue with waiting := [], receiver := .dropped }

def release (queue : Queue) : Queue := { queue with isHeld := false }

end Queue

end Herald.Live
