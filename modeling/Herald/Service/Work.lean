import Herald.Service.Basic
import Herald.UnitOfWork

/-!
Business work on the store of a service, in a transaction. Rows whose user is not there yet are taken
until the commit, which refuses them.
-/

namespace Herald

namespace Store.Tables

def duplicateKey : Fault := .primaryKeyViolation "UNIQUE constraint failed"

def addUser (tables : Tables) (user : User) : Except Fault Tables :=
  if tables.hasUser user.id then .error duplicateKey
  else .ok { tables with users := tables.users ++ [user] }

/-- Adds a row whose user need not be known before the commit. -/
def addRow (tables : Tables) (row : Notification) : Except Fault Tables :=
  if tables.rows.any (·.id = row.id) || row.content.any (tables.hasContent row.user) then
    .error duplicateKey
  else .ok { tables with rows := tables.rows ++ [row], recorded := tables.recorded + 1 }

def isConsistent (tables : Tables) : Bool := tables.rows.all fun row => tables.hasUser row.user

end Store.Tables

namespace Service

inductive Deed
  | addUser (user : User)
  | addRow (row : Notification)
  | stage (event : Event)
  | fail (kind : FailureKind)
  deriving DecidableEq, Repr

/-- Does deeds in order up to the first that fails; the result is how many there were. -/
def work : List Deed → (count : Nat) → Pending → Service → UnitOfWork.Work Service Nat
  | [], count, pending, service => ⟨.ok count, service, pending⟩
  | .stage event :: rest, count, pending, service =>
    work rest (count + 1) (pending.stage event) service
  | .fail kind :: _, _, pending, service => ⟨.error ⟨none, kind⟩, service, pending⟩
  | .addUser user :: rest, count, pending, service =>
    match service.tables.addUser user with
    | .ok tables => work rest (count + 1) pending { service with tables }
    | .error fault => ⟨.error (.ofStoreFault fault), service, pending⟩
  | .addRow row :: rest, count, pending, service =>
    match service.tables.addRow row with
    | .ok tables => work rest (count + 1) pending { service with tables }
    | .error fault => ⟨.error (.ofStoreFault fault), service, pending⟩

def control : UnitOfWork.Control Service where
  begin service := if service.tables.isClosed then some Store.Tables.closedFault else none
  commit service :=
    if service.tables.isConsistent then none
    else some (.foreignKeyViolation "FOREIGN KEY constraint failed")
  rollback _ := none

def transact (deeds : List Deed) : StateM Service (Except Failure Nat) :=
  UnitOfWork.transact control handle publisher (work deeds 0 .empty)

end Service

end Herald
