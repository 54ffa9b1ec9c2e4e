import Herald.Text.Digits
import Herald.Text.Octets

/-!
Identifiers of 128 bits. They are written in lower case as five hyphenated groups, and read in
either case from the bare digits, the hyphenated groups, the groups in braces or after the name
space of such identifiers.
-/

namespace Herald

open Text (ascii)

structure Identifier where
  value : Nat
  value_lt : value < 16 ^ 32
  deriving DecidableEq

namespace Identifier

instance : Repr Identifier where
  reprPrec identifier _ := repr identifier.value

instance : BEq Identifier := ⟨fun left right => left.value == right.value⟩

def ofNat (value : Nat) : Identifier := ⟨value % 16 ^ 32, Nat.mod_lt _ (by decide)⟩

instance : Inhabited Identifier := ⟨ofNat 0⟩

def nil : Identifier := ofNat 0

def groups : List Nat := [8, 4, 4, 4, 12]

def hyphenated : List Nat → List Char → List Char
  | [], _ => []
  | [length], digits => digits.take length
  | length :: lengths, digits =>
    digits.take length ++ '-' :: hyphenated lengths (digits.drop length)

def characters (identifier : Identifier) : List Char :=
  hyphenated groups (Text.Digits.text 16 32 identifier.value)

def text (identifier : Identifier) : String := String.ofList identifier.characters

inductive Fault
  | length (found : Nat)
  | character (found : Char) (index : Nat)
  | groupCount (found : Nat)
  | groupLength (group expected found : Nat)
  deriving DecidableEq, Repr

def Fault.message (fault : Fault) : String :=
  "UUID parsing failed: " ++
    match fault with
    | .length found => "invalid length: found " ++ toString found
    | .character found index =>
      "invalid character: found `" ++ String.singleton found ++ "` at " ++ toString index
    | .groupCount found => "invalid group count: expected 5, found " ++ toString found
    | .groupLength group expected found =>
      "invalid group length in group " ++ toString group ++ ": expected " ++ toString expected
        ++ ", found " ++ toString found

def digit? (character : Char) : Option Nat :=
  if character.toNat < 128 then Text.Digits.hexadecimal? (ascii character) else none

def ofDigits? (digits : List Char) : Option Identifier :=
  if digits.length = 32 then (digits.mapM digit?).map fun digits => ofNat (Text.Digits.value 16 digits)
  else none

def ungrouped? : List Nat → List Char → Option (List Char)
  | [], [] => some []
  | [], _ :: _ => none
  | [length], rest => if rest.length = length then some rest else none
  | length :: lengths, rest =>
    match rest.drop length with
    | '-' :: after => (ungrouped? lengths after).map (rest.take length ++ ·)
    | _ => none

def ofGroups? (characters : List Char) : Option Identifier :=
  (ungrouped? groups characters).bind ofDigits?

def nameSpace : List Char := ['u', 'r', 'n', ':', 'u', 'u', 'i', 'd', ':']

def unbraced? : List Char → Option (List Char)
  | '\x7b' :: rest => if rest.getLast? = some '\x7d' then some rest.dropLast else none
  | _ => none

def unnamed? (characters : List Char) : Option (List Char) :=
  if (characters.take nameSpace.length).map Char.toLower = nameSpace then
    some (characters.drop nameSpace.length)
  else none

def accepted? (characters : List Char) : Option Identifier :=
  (ofDigits? characters).or <| (ofGroups? characters).or <|
    ((unbraced? characters).bind ofGroups?).or ((unnamed? characters).bind ofGroups?)

/-- The octet offsets of the hyphens, or the first character that is neither hyphen nor digit. -/
def hyphens (offset : Nat) : List Char → Except Fault (List Nat)
  | [] => .ok []
  | character :: rest =>
    if character = '-' then (hyphens (offset + 1) rest).map (offset :: ·)
    else if (digit? character).isSome then hyphens (offset + 1) rest
    else .error (.character character offset)

/-- The first group whose closing hyphen is misplaced, or else the last group. -/
def misplaced (total : Nat) (group start : Nat) : List Nat → List Nat → Fault
  | length :: lengths, hyphen :: rest =>
    if hyphen = start + length then misplaced total (group + 1) (start + length + 1) lengths rest
    else .groupLength group length (hyphen - start)
  | length :: _, [] => .groupLength group length (total - start)
  | [], _ => .groupLength group 0 0

def explain (characters : List Char) : Fault :=
  let total := (String.ofList characters).utf8ByteSize
  let (inside, offset) :=
    match unbraced? characters with
    | some inside => (inside, 1)
    | none =>
      match unnamed? characters with
      | some inside => (inside, nameSpace.length)
      | none => (characters, 0)
  if 45 < total then .length total
  else
    match hyphens 0 inside with
    | .error (.character found index) => .character found (index + offset)
    | .error fault => fault
    | .ok hyphens =>
      if hyphens.isEmpty ∧ offset = 0 then .length total
      else if hyphens.length ≠ 4 then .groupCount (hyphens.length + 1)
      else misplaced total 0 0 groups hyphens

def read (text : String) : Except Fault Identifier :=
  match accepted? text.toList with
  | some identifier => .ok identifier
  | none => .error (explain text.toList)

end Identifier

end Herald
