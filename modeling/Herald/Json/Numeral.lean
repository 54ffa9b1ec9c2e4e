import Herald.Json.Reader
import Herald.Text.Digits

/-!
Numbers in JSON text. A whole number that fits 64 bits stays whole. Otherwise the first digits up to
64 bits are kept, the places of the others are counted, and the number is rounded; a number beyond
the range of rounding is a fault.
-/

namespace Herald.Json.Numeral

open Text (ascii)
open Text.Digits (isDecimal decimal)

def greatestWhole : Nat := 2 ^ 64 - 1

def digits : Reader (List UInt8) := fun input => .done (input.takeWhile isDecimal) (input.dropWhile isDecimal)

/-- Takes digits into a total while it stays within 64 bits; gives how many were taken. -/
def absorb (total : Nat) : List UInt8 → Nat × Nat
  | [] => (total, 0)
  | octet :: rest =>
    let next := total * 10 + decimal octet
    if greatestWhole < next then (total, 0)
    else
      let (total, taken) := absorb next rest
      (total, taken + 1)

def real (negative : Bool) (total : Nat) (places : Int) : Reader Number :=
  match Binary64.scaled? total places with
  | some value => pure (.real { value with negative })
  | none => Reader.fail .numberOutOfRange

def greatestExponent : Nat := 2 ^ 31 - 1

/-- The digits of an exponent up to the one that leads beyond its range, if one does. -/
def exponentExcess? (total : Nat) (taken : Nat) : List UInt8 → Option Nat
  | [] => none
  | octet :: rest =>
    let total := total * 10 + decimal octet
    if greatestExponent < total then some (taken + 1) else exponentExcess? total (taken + 1) rest

/-- Takes the sign of an exponent, if it has one; whether the exponent is negative. -/
def exponentSign : Reader Bool := do
  match ← Reader.peek with
  | some octet =>
    if octet = ascii '+' then
      Reader.advance
      pure false
    else if octet = ascii '-' then
      Reader.advance
      pure true
    else pure false
  | none => pure false

def exponentDigits (negative : Bool) (total : Nat) (places : Int) (shrinks : Bool) :
    Reader Number := fun input =>
  let given := input.takeWhile isDecimal
  match exponentExcess? 0 0 given with
  | some taken =>
    if total ≠ 0 ∧ !shrinks then Reader.fail .numberOutOfRange (input.drop taken)
    else .done (.real (Binary64.zero negative)) (input.dropWhile isDecimal)
  | none =>
    let value : Int := Text.Digits.value 10 (given.map decimal)
    let places := if shrinks then places - value else places + value
    real negative total (max (-(2 ^ 31 : Int)) (min greatestExponent places))
      (input.dropWhile isDecimal)

def exponent (negative : Bool) (total : Nat) (places : Int) : Reader Number := do
  let shrinks ← exponentSign
  match ← Reader.peek with
  | none => Reader.fail .endInValue
  | some octet =>
    if isDecimal octet then exponentDigits negative total places shrinks
    else
      Reader.advance
      Reader.fail .invalidNumber

def scaledEnd (negative : Bool) (total : Nat) (places : Int) : Reader Number := do
  match ← Reader.peek with
  | some octet =>
    if octet = ascii 'e' || octet = ascii 'E' then
      Reader.advance
      exponent negative total places
    else real negative total places
  | none => real negative total places

def fraction (negative : Bool) (total : Nat) (places : Int) : Reader Number := do
  let given ← digits
  if given.isEmpty then
    match ← Reader.peek with
    | some _ => Reader.failNext .invalidNumber
    | none => Reader.failNext .endInValue
  else
    let (total, taken) := absorb total given
    scaledEnd negative total (places - taken)

/-- After the whole digits, of which `dropped` did not fit. -/
def afterWhole (negative : Bool) (total dropped : Nat) : Reader Number := do
  match ← Reader.peek with
  | some octet =>
    if octet = ascii '.' then
      Reader.advance
      fraction negative total dropped
    else if octet = ascii 'e' || octet = ascii 'E' then
      Reader.advance
      exponent negative total dropped
    else wholeEnd
  | none => wholeEnd
where
  wholeEnd : Reader Number :=
    if dropped ≠ 0 then real negative total dropped
    else if !negative then pure (.whole total)
    else if total = 0 ∨ 2 ^ 63 < total then real true total 0
    else pure (.whole (-(total : Int)))

def unsigned (negative : Bool) : Reader Number := do
  match ← Reader.peek with
  | none => Reader.fail .endInValue
  | some octet =>
    if octet = ascii '0' then
      Reader.advance
      match ← Reader.peek with
      | some octet => if isDecimal octet then Reader.failNext .invalidNumber else afterWhole negative 0 0
      | none => afterWhole negative 0 0
    else if isDecimal octet then
      let given ← digits
      let (total, taken) := absorb 0 given
      afterWhole negative total (given.length - taken)
    else
      Reader.advance
      Reader.fail .invalidNumber

def number : Reader Number := do
  match ← Reader.peek with
  | some octet =>
    if octet = ascii '-' then
      Reader.advance
      unsigned true
    else unsigned false
  | none => unsigned false

end Herald.Json.Numeral
