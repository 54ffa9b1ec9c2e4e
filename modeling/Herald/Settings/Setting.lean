import Herald.Settings.Basic
import Herald.Text.Integer
import Herald.Text.Octets
import Herald.Text.Split

/-!
The settings one by one: what each is called on the command line and in the environment, and which
texts are values of it.
-/

namespace Herald

inductive Setting
  | allowedOrigins
  | databaseUrl
  | maxConnections
  | minConnections
  | connectTimeout
  | acquireTimeout
  | idleTimeout
  | maxLifetime
  | brokerUrl
  | topic
  | heartbeatInterval
  | streamCapacity
  | tokenSecret
  | ingestKey
  | interface
  | tcpPort
  | logLevel
  | environment
  deriving DecidableEq, Repr

namespace Setting

def all : List Setting :=
  [.allowedOrigins, .databaseUrl, .maxConnections, .minConnections, .connectTimeout,
    .acquireTimeout, .idleTimeout, .maxLifetime, .brokerUrl, .topic, .heartbeatInterval,
    .streamCapacity, .tokenSecret, .ingestKey, .interface, .tcpPort, .logLevel, .environment]

def name : Setting → String
  | .allowedOrigins => "allowed-origins"
  | .databaseUrl => "database-url"
  | .maxConnections => "db-max-connections"
  | .minConnections => "db-min-connections"
  | .connectTimeout => "db-connect-timeout-secs"
  | .acquireTimeout => "db-acquire-timeout-secs"
  | .idleTimeout => "db-idle-timeout-secs"
  | .maxLifetime => "db-max-lifetime-secs"
  | .brokerUrl => "redis-url"
  | .topic => "notification-topic"
  | .heartbeatInterval => "heartbeat-interval-secs"
  | .streamCapacity => "sse-buffer-capacity"
  | .tokenSecret => "jwt-secret"
  | .ingestKey => "internal-api-key"
  | .interface => "interface"
  | .tcpPort => "port"
  | .logLevel => "log-level-filter"
  | .environment => "runtime-env"

def letter? : Setting → Option Char
  | .databaseUrl => some 'd'
  | .interface => some 'i'
  | .tcpPort => some 'p'
  | .logLevel => some 'l'
  | .environment => some 'r'
  | _ => none

def environmentName (setting : Setting) : String :=
  setting.name.map fun character => if character = '-' then '_' else character.toUpper

def shown (setting : Setting) : String := "--" ++ setting.name ++ " <" ++ setting.environmentName ++ ">"

def choices : Setting → List String
  | .logLevel => LogLevel.all.map LogLevel.name
  | .environment => RuntimeEnvironment.settingNames
  | _ => []

end Setting

inductive ValueFault
  | notAmong
  | noNumber (fault : Text.IntegerFault)
  | outside (number : Int) (range : String)
  deriving DecidableEq, Repr

namespace Setting

def word (value : String) : Except ValueFault Nat :=
  (Text.natural? (2 ^ 64 - 1) (Text.octets value)).mapError .noNumber

def wordWithin (least greatest : Nat) (range value : String) : Except ValueFault Nat := do
  let number ← word value
  if least ≤ number ∧ number ≤ greatest then .ok number else .error (.outside number range)

/-- A number that is read with a sign and has to lie between zero and a bound. -/
def upTo (greatest : Nat) (value : String) : Except ValueFault Nat := do
  let number ← (Text.integer? (Text.octets value)).mapError ValueFault.noNumber
  if 0 ≤ number ∧ number ≤ greatest then .ok number.toNat
  else .error (.outside number ("0..=" ++ toString greatest))

def chosen {α : Type} (choice : Option α) : Except ValueFault α :=
  match choice with
  | some value => .ok value
  | none => .error .notAmong

def commaSeparated (value : String) : List String :=
  (Text.split ',' value.toList).map String.ofList

/-- Gives a setting the value of a text. Origins add to those already given. -/
def assign (setting : Setting) (value : String) (settings : Settings) :
    Except ValueFault Settings :=
  match setting with
  | .allowedOrigins =>
    .ok { settings with allowedOrigins := settings.allowedOrigins ++ commaSeparated value }
  | .databaseUrl => .ok { settings with databaseUrl := value }
  | .maxConnections => (upTo (2 ^ 32 - 1) value).map fun n => { settings with maxConnections := n }
  | .minConnections => (upTo (2 ^ 32 - 1) value).map fun n => { settings with minConnections := n }
  | .connectTimeout => (word value).map fun n => { settings with connectTimeout := n }
  | .acquireTimeout => (word value).map fun n => { settings with acquireTimeout := n }
  | .idleTimeout => (word value).map fun n => { settings with idleTimeout := n }
  | .maxLifetime => (word value).map fun n => { settings with maxLifetime := n }
  | .brokerUrl => .ok { settings with brokerUrl := value }
  | .topic => .ok { settings with topic := value }
  | .heartbeatInterval =>
    (wordWithin 1 (2 ^ 64 - 1) "1..18446744073709551615" value).map fun n =>
      { settings with heartbeatInterval := n }
  | .streamCapacity =>
    (wordWithin 1 4096 "1..=4096" value).map fun n => { settings with streamCapacity := n }
  | .tokenSecret => .ok { settings with tokenSecret := value }
  | .ingestKey => .ok { settings with ingestKey := some value }
  | .interface => .ok { settings with interface := value }
  | .tcpPort => (upTo 65535 value).map fun n => { settings with tcpPort := n }
  | .logLevel => (chosen (LogLevel.ofName? value)).map fun level => { settings with logLevel := level }
  | .environment =>
    let named := if setting.choices.contains value then RuntimeEnvironment.ofName? value else none
    (chosen named).map fun environment => { settings with environment }

end Setting

end Herald
