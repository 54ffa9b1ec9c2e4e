import Herald.Event.Wire

/-!
Topics within one process. A subscription receives the payloads published to its topic from then on,
in order; while it does not run, it keeps a bounded number of them and loses the oldest. The channel
also remembers its latest publishes, whoever subscribes.
-/

namespace Herald.Channel

def latest {α : Type} (limit : Nat) (items : List α) : List α := items.drop (items.length - limit)

/-- The items with another one behind them, for which the oldest one goes if they are at the limit. -/
def remembering {α : Type} (limit : Nat) (items : List α) (item : α) : List α :=
  if 0 < limit then (if items.length = limit then items.drop 1 else items) ++ [item] else items

structure Subscription where
  key : Nat
  topic : String
  /-- Payloads not received yet, oldest first. -/
  waiting : List String
  deriving DecidableEq, Repr

def Subscription.capacity : Nat := 1024

def Subscription.offer (topic payload : String) (subscription : Subscription) : Subscription :=
  if subscription.topic = topic then
    { subscription with waiting := latest capacity (subscription.waiting ++ [payload]) }
  else subscription

structure Topics where
  historyLimit : Nat
  /-- The remembered publishes, oldest first. -/
  history : List (String × Event)
  subscriptions : List Subscription
  made : Nat
  deriving Repr

namespace Topics

def defaultHistoryLimit : Nat := 1024

def withHistoryLimit (historyLimit : Nat) : Topics := ⟨historyLimit, [], [], 0⟩

def subscribe (topics : Topics) (topic : String) : Topics × Nat :=
  ({ topics with
      subscriptions := topics.subscriptions ++ [⟨topics.made, topic, []⟩], made := topics.made + 1 },
    topics.made)

def abort (topics : Topics) (key : Nat) : Topics :=
  { topics with subscriptions := topics.subscriptions.filter (·.key ≠ key) }

def remember (topics : Topics) (topic : String) (event : Event) : Topics :=
  { topics with history := remembering topics.historyLimit topics.history (topic, event) }

def publish (topics : Topics) (topic : String) (event : Event) : Topics :=
  let topics := topics.remember topic event
  { topics with
    subscriptions := topics.subscriptions.map (Subscription.offer topic event.encode) }

def received (payloads : List String) : List Event :=
  payloads.filterMap fun payload => (Event.decode payload).toOption

/-- Runs one subscription until it is idle; gives the events its handler is called with. -/
def drain (topics : Topics) (key : Nat) : Topics × List Event :=
  ({ topics with
      subscriptions := topics.subscriptions.map fun subscription =>
        if subscription.key = key then { subscription with waiting := [] } else subscription },
    match topics.subscriptions.find? (·.key = key) with
    | some subscription => received subscription.waiting
    | none => [])

def drainAll (topics : Topics) : Topics × List (Nat × List Event) :=
  (topics.subscriptions.map Subscription.key).foldl
    (fun (topics, given) key =>
      let (topics, events) := topics.drain key
      (topics, given ++ [(key, events)]))
    (topics, [])

def published (topics : Topics) : List Event := topics.history.map (·.2)

def publishedTo (topics : Topics) (topic : String) : List Event :=
  (topics.history.filter (·.1 = topic)).map (·.2)

end Topics

end Herald.Channel
