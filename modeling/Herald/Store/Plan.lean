import Herald.Notification.Basic
import Herald.Store.Fault

/-!
Statements on the store, and plans: what is asked of the store and of the channel one after another,
where every next step may depend on the answers so far. A plan says nothing about where the answers
come from.
-/

namespace Herald.Store

inductive Statement
  | findUser (user : Identifier)
  | findContent (user content : Identifier)
  /-- Adds a row unless one with the same user and content is there. -/
  | insert (new : NewNotification)
  | countRows (user : Identifier)
  /-- The user's rows from the newest on, leaving out `offset` of them. -/
  | pageRows (user : Identifier) (offset limit : Nat)
  | countUnread (user : Identifier)
  | findOwned (user id : Identifier)
  /-- Marks a row read; gives the row as it is then. -/
  | setRead (id : Identifier)
  | setAllRead (user : Identifier)
  deriving DecidableEq, Repr

namespace Statement

@[reducible] def Answer : Statement → Type
  | .findUser _ => List User
  | .findContent .. => List Notification
  | .insert _ => Nat
  | .countRows _ => Nat
  | .pageRows .. => List Notification
  | .countUnread _ => Nat
  | .findOwned .. => List Notification
  | .setRead _ => List Notification
  | .setAllRead _ => Nat

def verb : Statement → String
  | .findUser _ | .findContent .. | .countRows _ | .pageRows .. | .countUnread _ | .findOwned .. =>
    "SELECT"
  | .insert _ => "INSERT"
  | .setRead _ | .setAllRead _ => "UPDATE"

end Statement

inductive Action
  | query (statement : Statement)
  /-- Hands an event to the channel; the answer says whether that succeeded. -/
  | publish (event : Event)

@[reducible] def Action.Answer : Action → Type
  | .query statement => Except Fault statement.Answer
  | .publish _ => Bool

inductive Plan (α : Type) : Type
  | done (value : α)
  | step (action : Action) (next : action.Answer → Plan α)

namespace Plan

variable {α β : Type}

protected def bind : Plan α → (α → Plan β) → Plan β
  | .done value, next => next value
  | .step action continuation, next => .step action fun answer => (continuation answer).bind next

instance : Monad Plan where
  pure := .done
  bind := Plan.bind

def publish (event : Event) : Plan Bool := .step (.publish event) .done

def run {σ : Type} (answer : σ → (action : Action) → action.Answer × σ) : Plan α → σ → α × σ
  | .done value, state => (value, state)
  | .step action next, state =>
    let (given, state) := answer state action
    (next given).run answer state

end Plan

abbrev Attempt (α : Type) := ExceptT Failure Plan α

def Attempt.query (statement : Statement) : Attempt statement.Answer :=
  ExceptT.mk <| .step (.query statement) fun answer =>
    .done <| match answer with
      | .ok value => .ok value
      | .error fault => .error (.ofFault fault)

end Herald.Store
