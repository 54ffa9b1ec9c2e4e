import Herald.Settings.Fault

/-!
Settings while they are read. An option whose value is a word of its own waits until the next option
or the end of the words; only then is its value looked at.
-/

namespace Herald.Settings

structure Waiting where
  setting : Setting
  value : Option String
  deriving DecidableEq, Repr

structure Draft where
  settings : Settings
  given : List Setting
  waiting : Option Waiting
  deriving DecidableEq, Repr

namespace Draft

/-- Nothing is given yet; the origins that are given will be the only ones. -/
def empty : Draft := ⟨{ defaults "" with allowedOrigins := [] }, [], none⟩

def assign (draft : Draft) (setting : Setting) (value : String) : Except Fault Draft :=
  match setting.assign value draft.settings with
  | .ok settings => .ok { draft with settings, given := setting :: draft.given }
  | .error fault => .error (.badValue setting value fault)

/-- A value from the command line, where only the list of origins may be given again. -/
def enter (draft : Draft) (setting : Setting) (value : String) : Except Fault Draft :=
  if setting ∈ draft.given ∧ setting ≠ .allowedOrigins then .error (.repeated setting)
  else draft.assign setting value

def settle (draft : Draft) : Except Fault Draft :=
  match draft.waiting with
  | none => .ok draft
  | some ⟨setting, none⟩ => .error (.noValue setting)
  | some ⟨setting, some value⟩ => { draft with waiting := none }.enter setting value

/-- Takes in a variable of the environment unless the command line gave the setting. -/
def fill (environment : List (String × String)) (draft : Draft) (setting : Setting) :
    Except Fault Draft :=
  match environment.lookup setting.environmentName with
  | some value => if setting ∈ draft.given then .ok draft else draft.assign setting value
  | none => .ok draft

def finish (draft : Draft) : Except Fault Settings :=
  if .tokenSecret ∈ draft.given then
    .ok (if .allowedOrigins ∈ draft.given then draft.settings
      else { draft.settings with allowedOrigins := defaultOrigins })
  else .error .noTokenSecret

end Draft

end Herald.Settings
