import Herald.Store.Plan

/-!
Scripted answers to statements. Rows and counts are given out in the order of the questions, apart
from them the numbers of affected rows; when a script is used up, the statement fails.
-/

namespace Herald.Store

inductive Scripted
  | users (rows : List User)
  | notifications (rows : List Notification)
  | count (count : Nat)
  | fault (fault : Fault)
  deriving DecidableEq, Repr

structure Script where
  queries : List Scripted
  writes : List (Except Fault Nat)
  publishes : Bool
  statements : List Statement
  published : List Event

namespace Script

def exhausted : Fault := .query "no answer is left"

def mistyped : Fault := .type "a row of another table"

def toUsers : Scripted → Except Fault (List User)
  | .users rows => .ok rows
  | .notifications [] => .ok []
  | .fault fault => .error fault
  | _ => .error mistyped

def toNotifications : Scripted → Except Fault (List Notification)
  | .notifications rows => .ok rows
  | .users [] => .ok []
  | .fault fault => .error fault
  | _ => .error mistyped

/-- A count; an answer without rows counts as zero. -/
def toCount : Scripted → Except Fault Nat
  | .count count => .ok count
  | .users [] => .ok 0
  | .notifications [] => .ok 0
  | .fault fault => .error fault
  | _ => .error mistyped

def nextQuery {α : Type} (script : Script) (read : Scripted → Except Fault α) :
    Except Fault α × Script :=
  match script.queries with
  | [] => (.error exhausted, script)
  | scripted :: rest => (read scripted, { script with queries := rest })

def nextWrite (script : Script) : Except Fault Nat × Script :=
  match script.writes with
  | [] => (.error exhausted, script)
  | given :: rest => (given, { script with writes := rest })

def answerStatement (script : Script) :
    (statement : Statement) → Except Fault statement.Answer × Script
  | .findUser _ => script.nextQuery toUsers
  | .findContent .. => script.nextQuery toNotifications
  | .insert _ => script.nextWrite
  | .countRows _ => script.nextQuery toCount
  | .pageRows .. => script.nextQuery toNotifications
  | .countUnread _ => script.nextQuery toCount
  | .findOwned .. => script.nextQuery toNotifications
  | .setRead _ => script.nextQuery toNotifications
  | .setAllRead _ => script.nextWrite

def answer (script : Script) : (action : Action) → action.Answer × Script
  | .query statement =>
    ({ script with statements := script.statements ++ [statement] }).answerStatement statement
  | .publish event =>
    if script.publishes then (true, { script with published := script.published ++ [event] })
    else (false, script)

end Script

end Herald.Store
