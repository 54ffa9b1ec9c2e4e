import Herald.Text.Digits
import Herald.Text.Split

/-!
Internet addresses in text: four decimal octets, or eight pieces of sixteen bits in hexadecimal, where
one run of zero pieces may be left out.
-/

namespace Herald.Url

structure Address where
  pieces : List Nat
  deriving DecidableEq, Repr

namespace Address

open Text.Digits (hexadecimal?)

def hexDigit? (character : Char) : Option Nat :=
  if character.toNat < 128 then hexadecimal? (UInt8.ofNat character.toNat) else none

def decimalDigit? (character : Char) : Option Nat :=
  if character.isDigit then some (character.toNat - 48) else none

def octet? (characters : List Char) : Option Nat := do
  let digits ← characters.mapM decimalDigit?
  let value := Text.Digits.value 10 digits
  if digits = [] ∨ (1 < digits.length ∧ digits.head? = some 0) ∨ 255 < value then none else some value

def octets? (characters : List Char) : Option (List Nat) := do
  match ← (Text.split '.' characters).mapM octet? with
  | [a, b, c, d] => some [a * 256 + b, c * 256 + d]
  | _ => none

def piece? (characters : List Char) : Option Nat := do
  let digits ← characters.mapM hexDigit?
  if digits = [] ∨ 4 < digits.length then none else some (Text.Digits.value 16 digits)

/-- Pieces with colons between them; the last two may be four octets. -/
def pieces? : List (List Char) → Option (List Nat)
  | [] => some []
  | [last] => if last.contains '.' then octets? last else (piece? last).map ([·])
  | first :: rest => do
    let piece ← piece? first
    let others ← pieces? rest
    some (piece :: others)

def group? (characters : List Char) : Option (List Nat) :=
  if characters.isEmpty then some [] else pieces? (Text.split ':' characters)

def splitAtGap? : List Char → Option (List Char × List Char)
  | ':' :: ':' :: rest => some ([], rest)
  | character :: rest => (splitAtGap? rest).map fun (before, after) => (character :: before, after)
  | [] => none

def read? (characters : List Char) : Option Address :=
  match splitAtGap? characters with
  | some (before, after) => do
    if before.contains '.' then none
    else
      let before ← group? before
      let after ← group? after
      let present := before.length + after.length
      if 7 < present then none else some ⟨before ++ List.replicate (8 - present) 0 ++ after⟩
  | none => do
    let pieces ← group? characters
    if pieces.length = 8 then some ⟨pieces⟩ else none

/-! Writing. -/

def pieceText (piece : Nat) : String := String.ofList (Nat.toDigits 16 piece)

def piecesText (pieces : List Nat) : String := ":".intercalate (pieces.map pieceText)

def zeros (pieces : List Nat) : Nat := (pieces.takeWhile (· = 0)).length

/-- The start and the length of the first longest run of zero pieces. -/
def longestRun (pieces : List Nat) : Nat × Nat :=
  (List.range pieces.length).foldl
    (fun best start =>
      let length := zeros (pieces.drop start)
      if best.2 < length then (start, length) else best)
    (0, 0)

/-- The shortest form: the first longest run of at least two zero pieces is left out. -/
def text (address : Address) : String :=
  match address.pieces with
  | [0, 0, 0, 0, 0, 0xffff, high, low] =>
    "::ffff:" ++ ".".intercalate ([high / 256, high % 256, low / 256, low % 256].map toString)
  | pieces =>
    let (start, length) := longestRun pieces
    if length < 2 then piecesText pieces
    else piecesText (pieces.take start) ++ "::" ++ piecesText (pieces.drop (start + length))

end Address

end Herald.Url
