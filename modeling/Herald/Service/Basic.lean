import Herald.Channel.Topics
import Herald.Dispatch
import Herald.History.Basic
import Herald.Live.Manager
import Herald.Publisher.Basic
import Herald.Settings.Basic
import Herald.Store.Tables

/-!
A service as a whole: the store, the channel that instances share, and the live streams. Events that
are published are dispatched; what the channel takes comes back through the service's subscription,
which pushes it to the streams.
-/

namespace Herald

structure Service where
  settings : Settings
  /-- The clock, in seconds. -/
  now : Nat
  tables : Store.Tables
  topics : Channel.Topics
  /-- Whether the channel takes what is published; if not, every publish fails. -/
  takesEvents : Bool
  listener : Nat
  manager : Live.Manager

namespace Service

def start (settings : Settings) (now : Nat) (tables : Store.Tables) (topics : Channel.Topics)
    (takesEvents : Bool) : Service :=
  let (topics, listener) := topics.subscribe settings.topic
  { settings, now, tables, topics, takesEvents, listener
    manager := .ofCapacity settings.streamCapacity }

/-! Plans. -/

def answer (service : Service) : (action : Store.Action) → action.Answer × Service
  | .query statement =>
    let (given, tables) := service.tables.answer statement
    (given, { service with tables })
  | .publish event =>
    if service.takesEvents then
      (true, { service with topics := service.topics.publish service.settings.topic event })
    else (false, service)

def perform {α : Type} (plan : Store.Plan α) : StateM Service α := plan.run answer

def attempt {α : Type} (attempt : Store.Attempt α) : StateM Service (Except Failure α) := do
  let result ← perform attempt.run
  pure (result.mapError Failure.ofStore)

/-! Events. -/

def dispatch (event : Event) : StateM Service (Except Failure Outcome) :=
  perform (Dispatch.plan event)

inductive Handler
  | dispatcher
  deriving DecidableEq, Repr

/-- What a handler does with an event. -/
def handle : Handler → Event → StateM Service Unit
  | .dispatcher => Dispatch.handle perform

def publisher : Publisher Handler := Publisher.empty.withHandler .dispatcher

def publish (events : List Event) : StateM Service Unit := publisher.publishAll handle events

/-- Lets the subscription run until it is idle: every event it receives goes to the streams. -/
def settle : StateM Service Unit := modify fun service =>
  let (topics, events) := service.topics.drain service.listener
  { service with topics, manager := events.foldl Live.Manager.handle service.manager }

def closeStore : StateM Service Unit := modify fun service =>
  { service with tables := { service.tables with isClosed := true } }

end Service

end Herald
