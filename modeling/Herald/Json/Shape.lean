import Herald.Json.Numeral
import Herald.Json.Quotation

/-!
Readers of values of one shape. A value of another shape is read as far as a single value goes, and
then it is a mismatch at the place reached; lists and records are not entered.
-/

namespace Herald.Json.Shape

open Text (ascii)

variable {α : Type}

def unexpected (expected : String) : Reader α := Reader.placed do
  let wrong (found : Found) : Reader α := Reader.refuse (.wrongType found expected)
  match ← Reader.peek with
  | none => Reader.failNext .expectedValue
  | some octet =>
    if octet = ascii 'n' then
      Reader.advance
      Reader.word ['u', 'l', 'l']
      wrong .null
    else if octet = ascii 't' then
      Reader.advance
      Reader.word ['r', 'u', 'e']
      wrong (.boolean true)
    else if octet = ascii 'f' then
      Reader.advance
      Reader.word ['a', 'l', 's', 'e']
      wrong (.boolean false)
    else if octet = ascii '-' || Text.Digits.isDecimal octet then
      let number ← Numeral.number
      wrong (.number number)
    else if octet = ascii '"' then
      let text ← Quotation.quoted
      wrong (.text text)
    else if octet = ascii '[' then wrong .list
    else if octet = ascii '\x7b' then wrong .record
    else Reader.failNext .expectedValue

def byFirst (read : UInt8 → Reader α) : Reader α := do
  match ← Reader.peekToken with
  | none => Reader.failNext .endInValue
  | some octet => read octet

def checked (result : Except Mismatch α) : Reader α :=
  match result with
  | .ok value => pure value
  | .error mismatch => Reader.refuse mismatch

def textWith (expected : String) (check : String → Except Mismatch α) : Reader α :=
  byFirst fun octet =>
    if octet = ascii '"' then Reader.placed do
      let text ← Quotation.quoted
      checked (check text)
    else unexpected expected

def text : Reader String := textWith "a string" .ok

def boolean : Reader Bool := byFirst fun octet =>
  if octet = ascii 't' then do
    Reader.advance
    Reader.word ['r', 'u', 'e']
    pure true
  else if octet = ascii 'f' then do
    Reader.advance
    Reader.word ['a', 'l', 's', 'e']
    pure false
  else unexpected "a boolean"

def natural : Reader Nat := byFirst fun octet =>
  if octet = ascii '-' || Text.Digits.isDecimal octet then Reader.placed do
    match ← Numeral.number with
    | .whole value =>
      if 0 ≤ value then pure value.toNat
      else Reader.refuse (.wrongValue (.number (.whole value)) "u64")
    | .real value => Reader.refuse (.wrongType (.number (.real value)) "u64")
  else unexpected "u64"

def optional (reader : Reader α) : Reader (Option α) := do
  match ← Reader.peekToken with
  | some octet =>
    if octet = ascii 'n' then
      Reader.advance
      Reader.word ['u', 'l', 'l']
      pure none
    else
      let value ← reader
      pure (some value)
  | none =>
    let value ← reader
    pure (some value)

def void : Reader Unit := byFirst fun octet =>
  if octet = ascii 'n' then do
    Reader.advance
    Reader.word ['u', 'l', 'l']
  else unexpected "unit"

def list (item : Reader α) : Reader (List α) := byFirst fun octet =>
  if octet = ascii '[' then do
    let items ← Reader.inList <| Reader.foldItems
      (fun items => do
        let value ← item
        pure (value :: items)) []
    pure items.reverse
  else unexpected "a sequence"

/-- The name of a variant, or a record whose one member has that name and is null. -/
def variant (check : String → Except Mismatch α) : Reader α := byFirst fun octet =>
  if octet = ascii '"' then textWith "variant identifier" check
  else if octet = ascii '\x7b' then do
    Reader.advance
    let value ← textWith "variant identifier" check
    Reader.colon
    void
    match ← Reader.peekToken with
    | none => Reader.failNext .endInRecord
    | some octet =>
      if octet = ascii '\x7d' then
        Reader.advance
        pure value
      else Reader.fail .expectedValue
  else Reader.failNext .expectedValue

end Herald.Json.Shape
