import Herald.Live.Queue

/-!
The registry of live connections: each user has at most one, which is the sending end of a queue.
A message that the queue refuses costs the user the connection, and a newer connection tells the
older one that its session expired. Removals compare connection ids, so that what happens to an
older connection never touches a newer one.
-/

namespace Herald.Live

/-- The number of a connection; connections are numbered from one as they go live. -/
structure ConnectionId where
  number : Nat
  deriving DecidableEq, Repr

def ConnectionId.text (id : ConnectionId) : String := "conn#" ++ toString id.number

abbrev QueueKey := Nat

structure Connection where
  id : ConnectionId
  queue : QueueKey
  deriving DecidableEq, Repr

inductive Delivery
  | sent
  | notConnected
  | evicted
  deriving DecidableEq, Repr

structure HandshakeFailed where
  id : ConnectionId
  deriving DecidableEq, Repr

def HandshakeFailed.message (name : String) : String := "SSE handshake failed for connection " ++ name

structure Registry where
  queues : List Queue
  entries : List (Identifier × Connection)
  issued : Nat
  deriving Repr

/-- An order in which a broadcast visits the entries; which it is, is not for the registry to say. -/
structure Order where
  arrange : List (Identifier × Connection) → List (Identifier × Connection)
  perm : ∀ entries, (arrange entries).Perm entries

/-- The order in which the entries were made. -/
def Order.inserted : Order := ⟨id, fun _ => List.Perm.refl _⟩

namespace Registry

def empty : Registry := ⟨[], [], 0⟩

/-! Queues. -/

def openQueue (registry : Registry) (capacity : Nat) : Registry × QueueKey :=
  ({ registry with queues := registry.queues ++ [Queue.ofCapacity capacity] },
    registry.queues.length)

def queue? (registry : Registry) (key : QueueKey) : Option Queue := registry.queues[key]?

def changeQueue (registry : Registry) (key : QueueKey) (change : Queue → Queue) : Registry :=
  { registry with queues := registry.queues.modify key change }

def hasRoom (registry : Registry) (key : QueueKey) : Bool :=
  match registry.queue? key with
  | some queue => queue.hasRoom
  | none => false

def take (registry : Registry) (key : QueueKey) : Registry × Option Message :=
  match registry.queue? key with
  | some queue => (registry.changeQueue key fun queue => queue.take.2, queue.take.1)
  | none => (registry, none)

def isEnded (registry : Registry) (key : QueueKey) : Bool :=
  match registry.queue? key with
  | some queue =>
    queue.receiver ≠ .opened
      || (!queue.isHeld && !registry.entries.any fun (_, connection) => connection.queue = key)
  | none => true

/-! Entries. -/

def connection? (registry : Registry) (user : Identifier) : Option Connection :=
  registry.entries.lookup user

def isConnected (registry : Registry) (user : Identifier) : Bool :=
  (registry.connection? user).isSome

def size (registry : Registry) : Nat := registry.entries.length

def remove (registry : Registry) (user : Identifier) : Registry :=
  { registry with entries := registry.entries.filter (·.1 ≠ user) }

def install (registry : Registry) (user : Identifier) (connection : Connection) : Registry :=
  { registry with
    entries := registry.entries.filter (·.1 ≠ user) ++ [(user, connection)]
    issued := registry.issued + 1 }

def unregister (registry : Registry) (user : Identifier) (id : ConnectionId) : Registry × Bool :=
  match registry.connection? user with
  | some connection => if connection.id = id then (registry.remove user, true) else (registry, false)
  | none => (registry, false)

/-! Pushing, in the steps between which other users of the registry may act. -/

def offer (registry : Registry) (key : QueueKey) (message : Message) : Registry × Bool :=
  (registry.changeQueue key (·.push message), registry.hasRoom key)

def settle (registry : Registry) (user : Identifier) (id : ConnectionId) (taken : Bool) :
    Registry × Delivery :=
  if taken then (registry, .sent) else ((registry.unregister user id).1, .evicted)

def send (registry : Registry) (user : Identifier) (message : Message) : Registry × Delivery :=
  match registry.connection? user with
  | none => (registry, .notConnected)
  | some connection =>
    let (registry, taken) := registry.offer connection.queue message
    registry.settle user connection.id taken

def broadcastTo (message : Message) : List (Identifier × Connection) → Registry → Registry × Nat
  | [], registry => (registry, 0)
  | (user, connection) :: rest, registry =>
    let (registry, taken) := registry.offer connection.queue message
    let (registry, delivery) := registry.settle user connection.id taken
    let (registry, count) := broadcastTo message rest registry
    (registry, if delivery = .sent then count + 1 else count)

def broadcastIn (order : Order) (registry : Registry) (message : Message) : Registry × Nat :=
  broadcastTo message (order.arrange registry.entries) registry

/--
Visits the entries in the order in which they were made. Where no two entries share a queue, any other
order does the same.
-/
def broadcast (registry : Registry) (message : Message) : Registry × Nat :=
  registry.broadcastIn .inserted message

/-! Registering. -/

def expire (registry : Registry) (user : Identifier) : Registry :=
  match registry.connection? user with
  | some connection => (registry.offer connection.queue .sessionExpired).1
  | none => registry

/--
Makes a queue the user's only connection. The older connection is told first; then the first message
is pushed on the new one, and if its queue refuses that, the user is left without a connection.
-/
def register (registry : Registry) (user : Identifier) (key : QueueKey) :
    Registry × Except HandshakeFailed ConnectionId :=
  let id : ConnectionId := ⟨registry.issued + 1⟩
  let expired := registry.expire user
  let (greeted, taken) := expired.offer key (.connected id.text)
  if taken then (greeted.install user ⟨id, key⟩, .ok id)
  else (greeted.remove user, .error ⟨id⟩)

end Registry

end Herald.Live
