import Herald.Channel.Fault
import Herald.Store.Fault
import Herald.Token.Access

/-!
Failures as users of the service meet them: what kind they are, the failure of the store, channel or
token behind them, and the response they are answered with.
-/

namespace Herald

inductive EntityFailure
  | notFound
  | invalid
  | transaction
  | other (reason : String)
  deriving DecidableEq, Repr

inductive FailureKind
  | entity (failure : EntityFailure)
  | unauthenticated
  | configuration
  | internal (reason : String)
  | network
  | external (reason : String)
  deriving DecidableEq, Repr

inductive FailureSource
  | store (failure : Store.Failure)
  | channel (fault : Channel.Fault)
  | token (fault : Token.Fault)
  deriving DecidableEq, Repr

structure Failure where
  source : Option FailureSource
  kind : FailureKind
  deriving DecidableEq, Repr

namespace FailureKind

def name : FailureKind → String
  | .entity .notFound => "Internal.Entity.NotFound"
  | .entity .invalid => "Internal.Entity.Invalid"
  | .entity .transaction => "Internal.Entity.DbTransaction"
  | .entity (.other _) => "Internal.Entity.Other"
  | .unauthenticated => "Internal.Unauthenticated"
  | .configuration => "Internal.Config"
  | .internal _ => "Internal.Other"
  | .network => "External.Network"
  | .external _ => "External.Other"

/-- The kind of a name, with a reason for those that have one. -/
def ofName? (name reason : String) : Option FailureKind :=
  [.entity .notFound, .entity .invalid, .entity .transaction, .entity (.other reason),
    .unauthenticated, .configuration, .internal reason, .network, .external reason].find?
    fun kind : FailureKind => kind.name = name

def reason : FailureKind → String
  | .entity (.other reason) => reason
  | .internal reason => reason
  | .external reason => reason
  | _ => ""

def nested : FailureKind → String
  | .entity .notFound => "Internal(Entity(NotFound))"
  | .entity .invalid => "Internal(Entity(Invalid))"
  | .entity .transaction => "Internal(Entity(DbTransaction))"
  | .entity (.other reason) => "Internal(Entity(Other(" ++ Text.quoted reason ++ ")))"
  | .unauthenticated => "Internal(Unauthenticated)"
  | .configuration => "Internal(Config)"
  | .internal reason => "Internal(Other(" ++ Text.quoted reason ++ "))"
  | .network => "External(Network)"
  | .external reason => "External(Other(" ++ Text.quoted reason ++ "))"

def status : FailureKind → Nat
  | .entity .notFound => 404
  | .entity .invalid => 422
  | .entity _ => 500
  | .unauthenticated => 401
  | .configuration => 500
  | .internal _ => 500
  | .network => 502
  | .external _ => 500

def body (kind : FailureKind) : String :=
  match kind.status with
  | 404 => "NOT FOUND"
  | 422 => "UNPROCESSABLE ENTITY"
  | 401 => "UNAUTHORIZED"
  | 502 => "BAD GATEWAY"
  | _ => "INTERNAL SERVER ERROR"

end FailureKind

namespace FailureSource

def nested : FailureSource → String
  | .store failure => failure.nested
  | .channel fault => fault.nested
  | .token fault => fault.nested

def messages : FailureSource → List String
  | .store failure => [failure.message]
  | .channel fault => fault.message :: fault.cause?.toList
  | .token fault => [fault.message]

end FailureSource

namespace Failure

def isNotFound (failure : Failure) : Bool := failure.kind = .entity .notFound

def nested (failure : Failure) : String :=
  let source := match failure.source with
    | none => "None"
    | some source => "Some(" ++ source.nested ++ ")"
  "Error \x7b source: " ++ source ++ ", error_kind: " ++ failure.kind.nested ++ " \x7d"

def message (failure : Failure) : String := "Domain Error: " ++ failure.nested

def responseMessage (failure : Failure) : String := "Error(" ++ failure.nested ++ ")"

def sources (failure : Failure) : List String :=
  match failure.source with
  | none => []
  | some source => source.messages

def entityOf : Store.FailureKind → EntityFailure
  | .recordNotFound => .notFound
  | .invalidQueryTerm => .invalid
  | .systemError => .transaction
  | _ => .other "EntityErrorKind"

def ofStore (failure : Store.Failure) : Failure :=
  ⟨some (.store failure), .entity (entityOf failure.kind)⟩

def ofStoreFault (fault : Store.Fault) : Failure := ofStore (.ofFault fault)

def ofChannel (fault : Channel.Fault) : Failure :=
  ⟨some (.channel fault),
    match fault with
    | .serialization .. => .internal fault.message
    | _ => .network⟩

def ofToken (fault : Token.Fault) : Failure := ⟨some (.token fault), .unauthenticated⟩

end Failure

end Herald
