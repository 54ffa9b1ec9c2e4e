/-!
Settings with a few named values.
-/

namespace Herald

inductive LogLevel
  | off
  | error
  | warn
  | info
  | debug
  | trace
  deriving DecidableEq, Repr

namespace LogLevel

def all : List LogLevel := [.off, .error, .warn, .info, .debug, .trace]

def name : LogLevel → String
  | .off => "OFF"
  | .error => "ERROR"
  | .warn => "WARN"
  | .info => "INFO"
  | .debug => "DEBUG"
  | .trace => "TRACE"

def ofName? (name : String) : Option LogLevel := all.find? fun level => level.name = name

end LogLevel

inductive RuntimeEnvironment
  | development
  | production
  | staging
  deriving DecidableEq, Repr

namespace RuntimeEnvironment

def all : List RuntimeEnvironment := [.development, .production, .staging]

def name : RuntimeEnvironment → String
  | .development => "development"
  | .production => "production"
  | .staging => "staging"

def ofName? (name : String) : Option RuntimeEnvironment :=
  all.find? fun environment => environment.name = name.toLower

/-- The names that settings take: all in capitals, or all in small letters. -/
def settingNames : List String := all.map (·.name.toUpper) ++ all.map name

end RuntimeEnvironment

end Herald
