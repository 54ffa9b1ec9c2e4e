import Herald.Settings.Draft

/-!
The words of a command line. Options go by their name after two dashes or by their letter after one,
and take their value after an equals sign, directly after the letter, or as the next word. What is
not given there comes from the environment.
-/

namespace Herald.Settings

inductive Word
  | separator
  | long (name : String) (value : Option String)
  | short (letter : Char) (rest : List Char)
  | plain (text : String)
  deriving DecidableEq, Repr

def Word.ofText (text : String) : Word :=
  match text.toList with
  | ['-', '-'] => .separator
  | '-' :: '-' :: rest =>
    let (name, value) := Text.splitOnce '=' rest
    .long (String.ofList name) (value.map String.ofList)
  | '-' :: letter :: rest => .short letter rest
  | _ => .plain text

inductive Flag
  | assignment (setting : Setting)
  | help
  | version
  deriving DecidableEq, Repr

namespace Flag

def ofName? (name : String) : Option Flag :=
  if name = "help" then some .help
  else if name = "version" then some .version
  else (Setting.all.find? fun setting => setting.name = name).map .assignment

def ofLetter? (letter : Char) : Option Flag :=
  if letter = 'h' then some .help
  else if letter = 'V' then some .version
  else (Setting.all.find? fun setting => setting.letter? = some letter).map .assignment

def choose (flag : Flag) (value : Option String) (draft : Draft) : Except Fault Draft := do
  let draft ← draft.settle
  match flag, value with
  | .help, _ => .error .help
  | .version, _ => .error .version
  | .assignment setting, none => .ok { draft with waiting := some ⟨setting, none⟩ }
  | .assignment setting, some value => draft.enter setting value

end Flag

def attached : List Char → Option String
  | [] => none
  | '=' :: rest => some (String.ofList rest)
  | rest => some (String.ofList rest)

def readLong (name : String) (value : Option String) (draft : Draft) : Except Fault Draft :=
  match Flag.ofName? name, value with
  | none, _ => .error (.unexpected ("--" ++ name))
  | some (.assignment setting), value => (Flag.assignment setting).choose value draft
  | some flag, none => flag.choose none draft
  | some _, some value => .error (.unneededValue ("--" ++ name) value)

def readShort (letter : Char) (rest : List Char) (draft : Draft) : Except Fault Draft :=
  match Flag.ofLetter? letter with
  | none => .error (.unexpected (String.ofList ['-', letter]))
  | some flag => flag.choose (attached rest) draft

/-- A word that is no option is the value of the option that still waits for one. -/
def readPlain (text : String) (draft : Draft) : Except Fault Draft :=
  match draft.waiting with
  | some ⟨setting, none⟩ => .ok { draft with waiting := some ⟨setting, some text⟩ }
  | _ => .error (.unexpected text)

def readWords : List String → Draft → Except Fault Draft
  | [], draft => draft.settle
  | text :: rest, draft =>
    match Word.ofText text with
    | .separator =>
      match rest with
      | [] => draft.settle
      | extra :: _ => .error (.unexpected extra)
    | .long name value => do readWords rest (← readLong name value draft)
    | .short letter tail => do readWords rest (← readShort letter tail draft)
    | .plain text => do readWords rest (← readPlain text draft)

def read (words : List String) (environment : List (String × String)) : Except Fault Settings := do
  let draft ← readWords words .empty
  let draft ← Setting.all.foldlM (Draft.fill environment) draft
  draft.finish

end Herald.Settings
