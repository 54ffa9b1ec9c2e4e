import Herald.Json.Printer
import Herald.Json.Value
import Herald.Text.Split

/-!
Values written as compact text, and pointers into values: keys and places in lists, each after a
slash, where a tilde with a digit stands for a tilde or a slash within a key.
-/

namespace Herald.Json

def Number.print : Number → String
  | .whole value => toString value
  | .real value => value.text

mutual

def Value.print : Value → String
  | .null => "null"
  | .boolean value => Printer.boolean value
  | .number value => value.print
  | .text value => Printer.text value
  | .list items => Printer.list (Value.printItems items)
  | .record members => Printer.record (Value.printMembers members)

def Value.printItems : List Value → List String
  | [] => []
  | value :: rest => value.print :: Value.printItems rest

def Value.printMembers : List (String × Value) → List (String × String)
  | [] => []
  | (key, value) :: rest => (key, value.print) :: Value.printMembers rest

end

namespace Pointer

def unescaped : List Char → List Char
  | '~' :: '1' :: rest => '/' :: unescaped rest
  | '~' :: '0' :: rest => '~' :: unescaped rest
  | character :: rest => character :: unescaped rest
  | [] => []

def steps? (pointer : String) : Option (List String) :=
  match pointer.toList with
  | [] => some []
  | '/' :: rest => some ((Text.split '/' rest).map fun step => String.ofList (unescaped step))
  | _ => none

def place? (step : String) : Option Nat :=
  match step.toList with
  | [] => none
  | first :: rest =>
    if (first :: rest).all Char.isDigit && (first ≠ '0' || rest.isEmpty) then
      some (Text.Digits.value 10 ((first :: rest).map fun digit => digit.toNat - 48))
    else none

def step? (step : String) : Value → Option Value
  | .record members => members.lookup step
  | .list items => (place? step).bind fun place => items[place]?
  | _ => none

end Pointer

def Value.at? (value : Value) (pointer : String) : Option Value := do
  let steps ← Pointer.steps? pointer
  steps.foldlM (fun value step => Pointer.step? step value) value

end Herald.Json
