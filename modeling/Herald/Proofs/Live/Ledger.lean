import Herald.Proofs.Live.Subscribing

/-!
Runs of a manager, with a ledger of the subscriptions it has handed out: which of them were turned
into streams or dropped, and which were full when something was pushed on them.
-/

namespace Herald.Live

/-- What is done with a manager. Subscriptions are named by the ids of their connections. -/
inductive Operation
  | subscribe (user : Identifier)
  /-- Takes the next message from a subscription or its stream. -/
  | receive (id : ConnectionId)
  | intoStream (id : ConnectionId)
  /-- Reads a stream as far as it goes. -/
  | read (id : ConnectionId)
  | drop (id : ConnectionId)
  | send (user : Identifier) (message : Message)
  | broadcast (message : Message)
  | handle (event : Event)
  | sweep

structure Holding where
  subscription : Subscription
  isStream : Bool
  /-- Whether its holder dropped it, or its stream ended. -/
  isDropped : Bool
  /-- Whether a push found its queue full. -/
  hasRefused : Bool

namespace Holding

def isLive (holding : Holding) : Bool := !holding.isDropped && !holding.hasRefused

def connection (holding : Holding) : Connection :=
  ⟨holding.subscription.id, holding.subscription.queue⟩

/-- The holding after a push on the queues with the keys. -/
def noting (registry : Registry) (keys : List QueueKey) (holding : Holding) : Holding :=
  if holding.subscription.queue ∈ keys ∧ registry.isFull holding.subscription.queue then
    { holding with hasRefused := true }
  else holding

def dropping (id : ConnectionId) (holding : Holding) : Holding :=
  if holding.subscription.id = id then { holding with isDropped := true } else holding

def streaming (id : ConnectionId) (holding : Holding) : Holding :=
  if holding.subscription.id = id then { holding with isStream := true } else holding

end Holding

structure Ledger where
  manager : Manager
  /-- All subscriptions so far, latest first. -/
  holdings : List Holding

namespace Ledger

def start (capacity : Nat) : Ledger := ⟨.ofCapacity capacity, []⟩

def find? (ledger : Ledger) (id : ConnectionId) : Option Holding :=
  ledger.holdings.find? (·.subscription.id = id)

def latest? (ledger : Ledger) (user : Identifier) : Option Holding :=
  ledger.holdings.find? (·.subscription.user = user)

/-- The user's latest subscription, if it was neither dropped nor refused a push. -/
def live? (ledger : Ledger) (user : Identifier) : Option Holding :=
  (ledger.latest? user).filter Holding.isLive

def pushed (ledger : Ledger) (keys : List QueueKey) (manager : Manager) : Ledger :=
  ⟨manager, ledger.holdings.map (Holding.noting ledger.manager.registry keys)⟩

def recipientKeys (ledger : Ledger) (event : Event) : List QueueKey :=
  match event.recipient with
  | .user user => ledger.manager.registry.keyOf user
  | .everyone => ledger.manager.registry.allKeys

def subscribe (ledger : Ledger) (user : Identifier) : Ledger :=
  let (manager, result) := ledger.manager.subscribe user
  let told := ledger.pushed (ledger.manager.registry.keyOf user) manager
  match result with
  | .ok subscription => { told with holdings := ⟨subscription, false, false, false⟩ :: told.holdings }
  | .error _ => told

def drop (ledger : Ledger) (holding : Holding) : Ledger :=
  if holding.isDropped then ledger
  else
    ⟨ledger.manager.drop holding.subscription,
      ledger.holdings.map (Holding.dropping holding.subscription.id)⟩

/-- Ends a stream that has ended: what it holds is dropped. -/
def settle (ledger : Ledger) (holding : Holding) (isEnded : Bool) : Ledger :=
  if isEnded && holding.isStream then ledger.drop holding else ledger

def receive (ledger : Ledger) (holding : Holding) : Ledger :=
  let (manager, reading) := ledger.manager.receive holding.subscription
  Ledger.settle { ledger with manager } holding (reading = .ended)

def read (ledger : Ledger) (holding : Holding) : Ledger :=
  if holding.isStream then
    let (manager, _, isEnded) := ledger.manager.receiveAll holding.subscription
    Ledger.settle { ledger with manager } holding isEnded
  else ledger

def step (ledger : Ledger) : Operation → Ledger
  | .subscribe user => ledger.subscribe user
  | .receive id => ((ledger.find? id).map ledger.receive).getD ledger
  | .intoStream id => { ledger with holdings := ledger.holdings.map (Holding.streaming id) }
  | .read id => ((ledger.find? id).map ledger.read).getD ledger
  | .drop id => ((ledger.find? id).map ledger.drop).getD ledger
  | .send user message =>
    ledger.pushed (ledger.manager.registry.keyOf user) (ledger.manager.send user message).1
  | .broadcast message =>
    ledger.pushed ledger.manager.registry.allKeys (ledger.manager.broadcast message).1
  | .handle event => ledger.pushed (ledger.recipientKeys event) (ledger.manager.handle event)
  | .sweep => ledger.pushed ledger.manager.registry.allKeys ledger.manager.sweep.1

def run (ledger : Ledger) (operations : List Operation) : Ledger := operations.foldl step ledger

end Ledger

end Herald.Live
