import Herald.Channel.Backoff
import Herald.Channel.Fault
import Herald.Channel.Topics

/-!
A broker that carries topics between processes. A publish that finds its connection dropped is
repeated once on a new one. A subscriber listens on a connection of its own until that ends, and then
tries again after a wait.
-/

namespace Herald.Channel.Broker

/-! Publishing. -/

inductive Reply
  | receivers (count : Int)
  | errorLine (line : String)
  /-- Closes the connection without an answer. -/
  | dropped
  deriving DecidableEq, Repr

inductive Command
  | publish (topic payload : String)
  | subscribe (topic : String)
  deriving DecidableEq, Repr

def codeNames : List (String × String) :=
  [("ERR", "ResponseError"), ("EXECABORT", "ExecAbortError"), ("LOADING", "BusyLoadingError"),
    ("NOSCRIPT", "NoScriptError"), ("MOVED", "Moved"), ("ASK", "Ask"), ("TRYAGAIN", "TryAgain"),
    ("CLUSTERDOWN", "ClusterDown"), ("CROSSSLOT", "CrossSlot"), ("MASTERDOWN", "MasterDown"),
    ("READONLY", "ReadOnly"), ("NOTBUSY", "NotBusy")]

/-- The text of an error line: the code before the first space, and the detail after it. -/
def errorText (line : String) : String :=
  let characters := line.toList
  let code := String.ofList (characters.takeWhile (· ≠ ' '))
  let detail? := match characters.dropWhile (· ≠ ' ') with
    | [] => none
    | _ :: rest => some (String.ofList rest)
  match codeNames.lookup code, detail? with
  | some name, none => "An error was signalled by the server- " ++ name
  | some name, some detail => "An error was signalled by the server- " ++ name ++ ": " ++ detail
  | none, none => code ++ ": Unknown extension error encountered"
  | none, some detail => code ++ ": " ++ detail

def droppedText : String := "broken pipe"

def refusedText : String := "Connection refused (os error 111)"

/-- What the broker answers next; when its script is used up, one receiver. -/
def answer : List Reply → Reply × List Reply
  | [] => (.receivers 1, [])
  | reply :: rest => (reply, rest)

structure Publication where
  result : Except Fault Unit
  commands : List Command
  replies : List Reply

def result : Reply → Except Fault Unit
  | .receivers _ => .ok ()
  | .errorLine line => .error (.publish (errorText line))
  | .dropped => .error (.publish droppedText)

def publish (topic : String) (event : Event) (replies : List Reply) : Publication :=
  let command := Command.publish topic event.encode
  match answer replies with
  | (.dropped, rest) =>
    let (second, rest) := answer rest
    ⟨result second, [command, command], rest⟩
  | (reply, rest) => ⟨result reply, [command], rest⟩

def publishAll (topic : String) : List Event → List Reply →
    List (Except Fault Unit) × List Command
  | [], _ => ([], [])
  | event :: events, replies =>
    let publication := publish topic event replies
    let (results, commands) := publishAll topic events publication.replies
    (publication.result :: results, publication.commands ++ commands)

def publishUnreachable (events : List Event) : List (Except Fault Unit) :=
  events.map fun _ => .error (.connection refusedText)

/-! Subscribing. -/

inductive Session
  | refused
  | hungUp
  | accepted (payloads : List (List UInt8))
  deriving DecidableEq, Repr

def Session.isAccepted : Session → Bool
  | .accepted _ => true
  | _ => false

/-- The event that a payload spells; other payloads are passed over. -/
def eventOf? (payload : List UInt8) : Option Event :=
  (Text.ofOctets? payload).bind fun text => (Event.decode text).toOption

def Session.events : Session → List Event
  | .accepted payloads => payloads.filterMap eventOf?
  | _ => []

structure Listening where
  delivered : List Event
  commands : List Command
  /-- The waits in milliseconds before each attempt but the first. -/
  waits : List Nat

def listen (topic : String) (sessions : List Session) : Listening where
  delivered := sessions.flatMap Session.events
  commands := sessions.map fun _ => .subscribe topic
  waits := Backoff.waits (sessions.dropLast.map Session.isAccepted)

/-! Scripts of what a broker does to a subscriber. -/

inductive Act
  | refuse
  | hangUp
  | deliver (payload : List UInt8)
  | drop
  deriving DecidableEq, Repr

def Act.payload : Act → List UInt8
  | .deliver payload => payload
  | _ => []

/--
The sessions of a script, the last one accepted and not ended. Refusing and hanging up end an
attempt that waits to be accepted; within an accepted one they deliver an empty payload.
-/
def sessions : List Act → List Session
  | [] => [.accepted []]
  | .refuse :: rest => .refused :: sessions rest
  | .hangUp :: rest => .hungUp :: sessions rest
  | .drop :: rest => .accepted [] :: sessions rest
  | .deliver payload :: rest => within [payload] rest
where
  /-- Within an accepted session, with its payloads so far in reverse. -/
  within (payloads : List (List UInt8)) : List Act → List Session
    | [] => [.accepted payloads.reverse]
    | .drop :: rest => .accepted payloads.reverse :: sessions rest
    | act :: rest => within (act.payload :: payloads) rest

end Herald.Channel.Broker
