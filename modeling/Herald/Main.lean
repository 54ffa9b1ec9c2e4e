import Herald.Settings.CommandLine
import Herald.Settings.Endpoint

/-!
The command line of the service: reads the settings, and tells what they say about the start.
-/

namespace Herald

def settingVariables : IO (List (String × String)) :=
  Setting.all.filterMapM fun setting => do
    let value ← IO.getEnv setting.environmentName
    pure (value.map fun value => (setting.environmentName, value))

def helpText : String :=
  let line (setting : Setting) : String :=
    match setting.letter? with
    | some letter => "  -" ++ String.singleton letter ++ ", " ++ setting.shown
    | none => "      " ++ setting.shown
  "\n".intercalate ("Options:" :: Setting.all.map line)

def report (fault : Settings.Fault) : IO UInt32 := do
  if fault.isRequested then
    IO.println (if fault = .help then helpText else fault.message)
    pure 0
  else
    IO.eprintln fault.message
    pure 2

def announce (settings : Settings) : IO UInt32 :=
  match settings.obstacle? with
  | some obstacle => do
    IO.eprintln obstacle
    pure 1
  | none => do
    IO.println ("Starting up blind_notify [" ++ settings.environment.name ++ "] on "
      ++ settings.interface ++ ":" ++ toString settings.tcpPort ++ "...")
    pure 0

end Herald

def main (words : List String) : IO UInt32 := do
  match Herald.Settings.read words (← Herald.settingVariables) with
  | .ok settings => Herald.announce settings
  | .error fault => Herald.report fault
