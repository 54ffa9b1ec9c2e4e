import Herald.Failure
import Herald.History.Basic

/-!
Dispatching an event: one that is addressed to a user is recorded in the user's history first, and
published only if this call recorded it; any other event is published at once. A failed publish costs
the push but not the record.
-/

namespace Herald

open Store (Plan)

inductive Outcome
  | published
  /-- Recorded earlier, so neither recorded nor published again. -/
  | duplicate
  /-- Recorded if it is to be, but the channel did not take it. -/
  | publishFailed
  deriving DecidableEq, Repr

def Outcome.name : Outcome → String
  | .published => "Published"
  | .duplicate => "Duplicate"
  | .publishFailed => "PublishFailed"

namespace Dispatch

def announce (event : Event) : Store.Attempt Outcome := do
  let taken ← ExceptT.lift (Plan.publish event)
  pure (if taken then .published else .publishFailed)

def attempt (event : Event) : Store.Attempt Outcome :=
  match NewNotification.ofEvent? event with
  | none => announce event
  | some new => do
    let _ ← History.findUser new.user
    if ← History.recordIfAbsent new then announce event else pure .duplicate

def plan (event : Event) : Plan (Except Failure Outcome) := do
  let result ← (attempt event).run
  pure (result.mapError Failure.ofStore)

/-- Handles an event by its dispatch; one that fails is only noted. -/
def handle {m : Type → Type} [Monad m]
    (perform : Plan (Except Failure Outcome) → m (Except Failure Outcome)) (event : Event) :
    m Unit := do
  let _ ← perform (plan event)

end Dispatch

end Herald
