import Herald.Settings.Basic
import Herald.Text.Integer
import Herald.Url.Basic

/-!
The places that settings point to: the broker between instances, and the store.
-/

namespace Herald.Settings

inductive BrokerPlace
  | network (host : String) (number : Nat)
  | socket (path : String)
  deriving DecidableEq, Repr

def BrokerPlace.text : BrokerPlace → String
  | .network host number => host ++ ":" ++ toString number
  | .socket path => path

structure Broker where
  place : BrokerPlace
  database : Int
  username : Option String
  password : Option String
  deriving DecidableEq, Repr

inductive BrokerFault
  | unreadable
  | noHost
  | noPath
  | encrypted
  | badDatabase
  | badUsername
  | badPassword
  deriving DecidableEq, Repr

namespace BrokerFault

def kindName : String := "InvalidClientConfig"

def reason : BrokerFault → String
  | .unreadable => "Redis URL did not parse"
  | .noHost => "Missing hostname"
  | .noPath => "Missing path"
  | .encrypted => "can't connect with TLS, the feature is not enabled"
  | .badDatabase => "Invalid database number"
  | .badUsername => "Username is not valid UTF-8 string"
  | .badPassword => "Password is not valid UTF-8 string"

def message (fault : BrokerFault) : String := fault.reason ++ "- " ++ kindName

end BrokerFault

namespace Broker

def defaultPort : Nat := 6379

def octets (characters : List Char) : List UInt8 := Text.octets (String.ofList characters)

def isSlash (character : Char) : Bool := character = '/'

def databaseNumber (digits : List UInt8) : Except BrokerFault Int :=
  (Text.integer? digits).mapError fun _ => .badDatabase

/-- The number of a database in a path; slashes at its ends do not count. -/
def databaseOf (path : List Char) : Except BrokerFault Int :=
  match ((path.dropWhile isSlash).reverse.dropWhile isSlash).reverse with
  | [] => .ok 0
  | digits => databaseNumber (octets digits)

def credential (characters : List Char) (fault : BrokerFault) : Except BrokerFault String :=
  match Text.ofOctets? (Text.Percent.decode (octets characters)) with
  | some text => .ok text
  | none => .error fault

def onNetwork (url : Url) : Except BrokerFault Broker := do
  let some host := url.host | .error .noHost
  if url.scheme = "rediss" then .error .encrypted
  else
    let database ← databaseOf url.path
    let username ←
      if url.username.isEmpty then pure none
      else (credential url.username .badUsername).map some
    let password ← match url.password with
      | none => pure none
      | some password => (credential password .badPassword).map some
    .ok ⟨.network host.text (url.tcpPort.getD defaultPort), database, username, password⟩

def parameter? (pairs : List (List UInt8 × List UInt8)) (name : String) : Option (List UInt8) :=
  pairs.reverse.lookup (Text.octets name)

def onSocket (url : Url) : Except BrokerFault Broker := do
  let isLocal := url.host = none ∨ url.host = some (.name "localhost")
  if isLocal ∧ url.path.head? = some '/' then
    let path := (Text.ofOctets? (Text.Percent.decode (octets url.path))).getD ""
    let pairs := Text.Percent.pairs (octets (url.query.getD []))
    let text? (name : String) := (parameter? pairs name).map fun value => (Text.ofOctets? value).getD ""
    let database ← match parameter? pairs "db" with
      | none => .ok 0
      | some digits => databaseNumber digits
    .ok ⟨.socket path, database, text? "user", text? "pass"⟩
  else .error .noPath

def read (text : String) : Except BrokerFault Broker :=
  match Url.read? text with
  | none => .error .unreadable
  | some url =>
    if url.scheme = "redis" ∨ url.scheme = "rediss" then onNetwork url
    else if url.scheme = "unix" ∨ url.scheme = "redis+unix" then onSocket url
    else .error .unreadable

end Broker

/-! The store. -/

def storeSchemes : List String := ["postgres", "postgresql", "sqlite"]

def storeObjection? (text : String) : Option String :=
  match Url.read? text with
  | none => some ("Connection Error: The connection string '" ++ text ++ "' cannot be parsed.")
  | some url =>
    if storeSchemes.contains url.scheme then none
    else some ("Connection Error: The connection string '" ++ text ++ "' has no supporting driver.")

/-! Both. -/

def obstacle? (settings : Settings) : Option String :=
  match storeObjection? settings.databaseUrl with
  | some objection => some ("Failed to establish database connection: " ++ objection)
  | none =>
    match Broker.read settings.brokerUrl with
    | .ok _ => none
    | .error fault => some ("Invalid Redis configuration: " ++ fault.message)

end Herald.Settings
