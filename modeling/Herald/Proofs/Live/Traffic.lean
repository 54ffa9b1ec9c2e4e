import Herald.Proofs.Live.Retirement
import Mathlib.Logic.Function.Iterate

/-!
Calls of a registry that run at the same time. Registering and removing take one step each. Sending
takes two: the message is pushed on the user's queue, and the outcome is settled. Broadcasting first
takes copies of all entries, in whatever order; then each copy takes the two steps of sending. Between
any two steps others may act, and readers take what is queued.
-/

namespace Herald.Live

/-- A call, or what is left of it. -/
inductive Call
  /-- Makes a new queue the user's connection. -/
  | register (user : Identifier) (capacity : Nat)
  | unregister (user : Identifier) (id : ConnectionId)
  | send (user : Identifier) (message : Message)
  | broadcast (message : Message) (order : Order)
  /-- A message that is still to be pushed on copies of entries. -/
  | push (message : Message) (copies : List (Identifier × Connection))
  /-- A push that was tried on the connection with an id, and what comes after it. -/
  | settle (user : Identifier) (id : ConnectionId) (taken : Bool) (message : Message)
      (copies : List (Identifier × Connection))
  | finished

namespace Call

def step (registry : Registry) : Call → Registry × Call
  | .register user capacity => (registry.enroll user capacity, .finished)
  | .unregister user id => ((registry.unregister user id).1, .finished)
  | .send user message =>
    match registry.connection? user with
    | none => (registry, .finished)
    | some connection =>
      let (offered, taken) := registry.offer connection.queue message
      (offered, .settle user connection.id taken message [])
  | .broadcast message order => (registry, .push message (order.arrange registry.entries))
  | .push _ [] => (registry, .finished)
  | .push message ((user, connection) :: copies) =>
    let (offered, taken) := registry.offer connection.queue message
    (offered, .settle user connection.id taken message copies)
  | .settle user id taken message copies =>
    ((registry.settle user id taken).1, .push message copies)
  | .finished => (registry, .finished)

/-- The messages that the rest of a call may still push on a queue, by copies of entries. -/
def copies (key : QueueKey) : Call → List Message
  | .push message copies | .settle _ _ _ message copies =>
    (copies.filter (·.2.queue = key)).map fun _ => message
  | _ => []

/-! Calls that run alone do what sending and broadcasting do. -/

/-- The steps of a call alone. -/
def alone (state : Registry × Call) : Registry × Call := state.2.step state.1

theorem alone_push (message : Message) (copies : List (Identifier × Connection))
    (registry : Registry) :
    alone^[2 * copies.length + 1] (registry, .push message copies) =
      ((Registry.broadcastTo message copies registry).1, .finished) := by
  induction copies generalizing registry with
  | nil => rfl
  | cons entry copies ih => exact ih _

theorem alone_broadcast (message : Message) (order : Order) (registry : Registry) :
    alone^[2 * registry.entries.length + 2] (registry, .broadcast message order) =
      ((registry.broadcastIn order message).1, .finished) := by
  rw [← (order.perm registry.entries).length_eq]
  exact alone_push message (order.arrange registry.entries) registry

theorem alone_send (user : Identifier) (message : Message) (registry : Registry) :
    alone^[3] (registry, .send user message) = ((registry.send user message).1, .finished) := by
  rw [Registry.send]
  simp only [Function.iterate_succ, Function.iterate_zero, Function.comp_apply, id_eq, alone, step]
  cases registry.connection? user with
  | none => rfl
  | some connection => rfl

end Call

/-- A registry and the calls that are made of it. -/
structure Traffic where
  registry : Registry
  calls : List Call

inductive Turn
  /-- One step of a call. -/
  | call (index : Nat)
  /-- A reader takes the next message from a queue. -/
  | receive (key : QueueKey)

namespace Traffic

def start (calls : List Call) : Traffic := ⟨.empty, calls⟩

def turn (traffic : Traffic) : Turn → Traffic
  | .call index =>
    match traffic.calls[index]? with
    | none => traffic
    | some call =>
      let (registry, rest) := call.step traffic.registry
      ⟨registry, traffic.calls.set index rest⟩
  | .receive key => { traffic with registry := (traffic.registry.take key).1 }

def run (traffic : Traffic) (turns : List Turn) : Traffic := turns.foldl turn traffic

/-- The messages that are queued on a queue in the turns. -/
def queued (key : QueueKey) (traffic : Traffic) : List Turn → List Message
  | [] => []
  | turn :: rest =>
    Registry.gained key traffic.registry (traffic.turn turn).registry
      ++ (traffic.turn turn).queued key rest

/-- The messages that calls in flight may still push on a queue, by copies of entries. -/
def copies (key : QueueKey) (traffic : Traffic) : List Message :=
  traffic.calls.flatMap (Call.copies key)

/-- A call is about to tell the connection with a queue that its session expired. -/
def Supersedes (traffic : Traffic) (index : Nat) (key : QueueKey) : Prop :=
  ∃ user capacity, traffic.calls[index]? = some (.register user capacity) ∧
    key ∈ traffic.registry.keyOf user ∧ traffic.registry.hasRoom key = true

end Traffic

end Herald.Live
