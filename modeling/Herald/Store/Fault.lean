import Herald.Text.Quoted

/-!
What a statement on the store may fail with, and how such a fault is classified: a constraint that
keeps rows distinct, a row that is not there, or the store itself.
-/

namespace Herald.Store

inductive Fault
  | uniqueViolation (reason : String)
  | primaryKeyViolation (reason : String)
  | foreignKeyViolation (reason : String)
  | acquireTimeout
  | acquireClosed
  | connection (reason : String)
  | execution (reason : String)
  | query (reason : String)
  | recordNotFound (reason : String)
  | recordNotUpdated
  | recordNotInserted
  | unpackInsertId
  | updateGetPrimaryKey
  | attributeNotSet (reason : String)
  | type (reason : String)
  | json (reason : String)
  | custom (reason : String)
  | migration (reason : String)
  deriving DecidableEq, Repr

namespace Fault

def isUniqueness : Fault → Bool
  | .uniqueViolation _ => true
  | .primaryKeyViolation _ => true
  | _ => false

def nested : Fault → String
  | .uniqueViolation reason => of "Query" (of "UniqueConstraintViolation" (Text.quoted reason))
  | .primaryKeyViolation reason => of "Query" (of "UniqueConstraintViolation" (Text.quoted reason))
  | .foreignKeyViolation reason =>
    of "Query" (of "ForeignKeyConstraintViolation" (Text.quoted reason))
  | .acquireTimeout => of "ConnectionAcquire" "Timeout"
  | .acquireClosed => of "ConnectionAcquire" "ConnectionClosed"
  | .connection reason => of "Conn" (of "Internal" (Text.quoted reason))
  | .execution reason => of "Exec" (of "Internal" (Text.quoted reason))
  | .query reason => of "Query" (of "Internal" (Text.quoted reason))
  | .recordNotFound reason => of "RecordNotFound" (Text.quoted reason)
  | .recordNotUpdated => "RecordNotUpdated"
  | .recordNotInserted => "RecordNotInserted"
  | .unpackInsertId => "UnpackInsertId"
  | .updateGetPrimaryKey => "UpdateGetPrimaryKey"
  | .attributeNotSet reason => of "AttrNotSet" (Text.quoted reason)
  | .type reason => of "Type" (Text.quoted reason)
  | .json reason => of "Json" (Text.quoted reason)
  | .custom reason => of "Custom" (Text.quoted reason)
  | .migration reason => of "Migration" (Text.quoted reason)
where
  of (name inside : String) : String := name ++ "(" ++ inside ++ ")"

end Fault

inductive FailureKind
  | invalidQueryTerm
  | recordNotFound
  | recordNotUpdated
  | duplicateRecord
  | systemError
  | other
  deriving DecidableEq, Repr

def FailureKind.name : FailureKind → String
  | .invalidQueryTerm => "InvalidQueryTerm"
  | .recordNotFound => "RecordNotFound"
  | .recordNotUpdated => "RecordNotUpdated"
  | .duplicateRecord => "DuplicateRecord"
  | .systemError => "SystemError"
  | .other => "Other"

structure Failure where
  source : Option Fault
  kind : FailureKind
  deriving DecidableEq, Repr

namespace Failure

def notFound : Failure := ⟨none, .recordNotFound⟩

def kindOf (fault : Fault) : FailureKind :=
  if fault.isUniqueness then .duplicateRecord
  else
    match fault with
    | .recordNotFound _ => .recordNotFound
    | .recordNotUpdated => .recordNotUpdated
    | _ => .systemError

def ofFault (fault : Fault) : Failure := ⟨some fault, kindOf fault⟩

def nested (failure : Failure) : String :=
  let source := match failure.source with
    | none => "None"
    | some fault => "Some(" ++ fault.nested ++ ")"
  "Error \x7b source: " ++ source ++ ", error_kind: " ++ failure.kind.name ++ " \x7d"

def message (failure : Failure) : String := "Entity API Error: " ++ failure.nested

end Failure

end Herald.Store
