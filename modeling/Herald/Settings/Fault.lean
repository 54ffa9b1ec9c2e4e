import Herald.Settings.Setting

/-!
Why no settings can be read from a command line and an environment, and the requests for help or the
version, which end the reading as well.
-/

namespace Herald.Settings

inductive Fault
  | help
  | version
  | unexpected (argument : String)
  | repeated (setting : Setting)
  | noValue (setting : Setting)
  | badValue (setting : Setting) (value : String) (fault : ValueFault)
  | unneededValue (option value : String)
  | noTokenSecret
  deriving DecidableEq, Repr

namespace Fault

def choicesText (setting : Setting) : String :=
  if setting.choices.isEmpty then ""
  else "\n  [possible values: " ++ ", ".intercalate setting.choices ++ "]"

def noValueText (setting : Setting) : String :=
  "error: a value is required for '" ++ setting.shown ++ "' but none was supplied"
    ++ choicesText setting

def badValueText (setting : Setting) (value : String) : String :=
  "error: invalid value '" ++ value ++ "' for '" ++ setting.shown ++ "'"

/-- What is printed; the help is left out here. -/
def message : Fault → String
  | .help => ""
  | .version => "service 1.0.0-beta1"
  | .unexpected argument => "error: unexpected argument '" ++ argument ++ "' found"
  | .repeated setting =>
    "error: the argument '" ++ setting.shown ++ "' cannot be used multiple times"
  | .noValue setting => noValueText setting
  | .badValue setting value .notAmong =>
    if value.isEmpty then noValueText setting else badValueText setting value ++ choicesText setting
  | .badValue setting value (.noNumber fault) => badValueText setting value ++ ": " ++ fault.message
  | .badValue setting value (.outside number range) =>
    badValueText setting value ++ ": " ++ toString number ++ " is not in " ++ range
  | .unneededValue option value =>
    "error: unexpected value '" ++ value ++ "' for '" ++ option ++ "' found; no more were expected"
  | .noTokenSecret =>
    "error: the following required arguments were not provided:\n  " ++ Setting.tokenSecret.shown

def isRequested : Fault → Bool
  | .help | .version => true
  | _ => false

end Fault

end Herald.Settings
