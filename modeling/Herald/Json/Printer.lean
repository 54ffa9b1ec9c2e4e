import Herald.Json.Quotation

/-!
Compact JSON text: no blanks, members in the order given.
-/

namespace Herald.Json.Printer

def separated : List String → String
  | [] => ""
  | [item] => item
  | item :: rest => item ++ "," ++ separated rest

def list (items : List String) : String := "[" ++ separated items ++ "]"

def member (key : String) (value : String) : String := Quotation.print key ++ ":" ++ value

def record (members : List (String × String)) : String :=
  "\x7b" ++ separated (members.map fun (key, value) => member key value) ++ "\x7d"

def text (value : String) : String := Quotation.print value

def boolean (value : Bool) : String := if value then "true" else "false"

def natural (value : Nat) : String := toString value

def optional {α : Type} (print : α → String) : Option α → String
  | none => "null"
  | some value => print value

end Herald.Json.Printer
