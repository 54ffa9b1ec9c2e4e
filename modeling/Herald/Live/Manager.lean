import Herald.Live.Frame
import Herald.Live.Registry

/-!
The manager opens one stream per user, each with a queue of its own, and pushes messages on them. A
subscription that is dropped leaves the registry, unless a newer one has taken its place there.
-/

namespace Herald.Live

structure Subscription where
  user : Identifier
  id : ConnectionId
  queue : QueueKey
  deriving DecidableEq, Repr

structure Manager where
  capacity : Nat
  registry : Registry
  deriving Repr

namespace Manager

def defaultCapacity : Nat := 64

def ofCapacity (capacity : Nat) : Manager := ⟨max capacity 1, .empty⟩

def subscribe (manager : Manager) (user : Identifier) :
    Manager × Except HandshakeFailed Subscription :=
  let (opened, key) := manager.registry.openQueue manager.capacity
  let (registered, result) := opened.register user key
  let registry := registered.changeQueue key Queue.release
  match result with
  | .ok id => ({ manager with registry }, .ok ⟨user, id, key⟩)
  | .error failure => ({ manager with registry := registry.changeQueue key Queue.dropReceiver },
      .error failure)

inductive Reading
  | message (message : Message)
  | pending
  | ended
  deriving DecidableEq, Repr

def receive (manager : Manager) (subscription : Subscription) : Manager × Reading :=
  match manager.registry.take subscription.queue with
  | (registry, some message) => ({ manager with registry }, .message message)
  | (_, none) =>
    (manager, if manager.registry.isEnded subscription.queue then .ended else .pending)

def receiveAll (manager : Manager) (subscription : Subscription) :
    Manager × List Message × Bool :=
  match manager.registry.queue? subscription.queue with
  | some queue =>
    ({ manager with
        registry := manager.registry.changeQueue subscription.queue
          fun queue => { queue with waiting := [] } },
      queue.waiting, manager.registry.isEnded subscription.queue)
  | none => (manager, [], true)

def streamText (messages : List Message) : String :=
  String.join (messages.map fun message => (Frame.ofMessage message).text)

def drop (manager : Manager) (subscription : Subscription) : Manager :=
  let registry := manager.registry.changeQueue subscription.queue Queue.dropReceiver
  { manager with registry := (registry.unregister subscription.user subscription.id).1 }

def send (manager : Manager) (user : Identifier) (message : Message) : Manager × Delivery :=
  let (registry, delivery) := manager.registry.send user message
  ({ manager with registry }, delivery)

def broadcast (manager : Manager) (message : Message) : Manager × Nat :=
  let (registry, count) := manager.registry.broadcast message
  ({ manager with registry }, count)

def sweep (manager : Manager) : Manager × Nat := manager.broadcast .heartbeat

def handle (manager : Manager) (event : Event) : Manager :=
  match event.recipient with
  | .user user => (manager.send user (.notification event)).1
  | .everyone => (manager.broadcast (.notification event)).1

def count (manager : Manager) : Nat := manager.registry.size

def isConnected (manager : Manager) (user : Identifier) : Bool := manager.registry.isConnected user

end Manager

end Herald.Live
