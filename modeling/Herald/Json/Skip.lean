import Herald.Json.Reader
import Herald.Text.Digits

/-!
Values that are passed over. Only their brackets, separators and tokens are looked at: lists and
records may be nested without limit, numbers may have any size, and escapes need not pair up.
-/

namespace Herald.Json.Skip

open Text (ascii)
open Text.Digits (isDecimal)

inductive Frame
  | list
  | record
  deriving DecidableEq, Repr

namespace Frame

def close : Frame → UInt8
  | .list => ascii ']'
  | .record => ascii '\x7d'

def unclosed : Frame → Cause
  | .list => .endInList
  | .record => .endInRecord

def unseparated : Frame → Cause
  | .list => .expectedListCommaOrEnd
  | .record => .expectedRecordCommaOrEnd

end Frame

def decimals : Reader Unit := fun input => .done () (input.dropWhile isDecimal)

def exponentSign : Reader Unit := do
  match ← Reader.peek with
  | some octet => if octet = ascii '+' || octet = ascii '-' then Reader.advance
  | none => pure ()

def exponent : Reader Unit := do
  Reader.advance
  exponentSign
  match ← Reader.next with
  | some octet => if isDecimal octet then decimals else Reader.fail .invalidNumber
  | none => Reader.fail .invalidNumber

def maybeExponent : Reader Unit := do
  match ← Reader.peek with
  | some octet => if octet = ascii 'e' || octet = ascii 'E' then exponent
  | none => pure ()

def fraction : Reader Unit := do
  Reader.advance
  match ← Reader.peek with
  | some octet =>
    if isDecimal octet then
      decimals
      maybeExponent
    else Reader.failNext .invalidNumber
  | none => Reader.failNext .invalidNumber

def afterWhole : Reader Unit := do
  match ← Reader.peek with
  | some octet => if octet = ascii '.' then fraction else maybeExponent
  | none => pure ()

def number : Reader Unit := do
  match ← Reader.next with
  | none => Reader.fail .invalidNumber
  | some octet =>
    if octet = ascii '0' then
      match ← Reader.peek with
      | some octet => if isDecimal octet then Reader.failNext .invalidNumber else afterWhole
      | none => pure ()
    else if isDecimal octet then
      decimals
      afterWhole
    else Reader.fail .invalidNumber

inductive Mode
  | plain
  | escape
  | unit (digits : List UInt8)
  deriving DecidableEq, Repr

def quotation : Mode → Reader Unit
  | _, [] => .fault { cause := .endInString, unread := some 0 } []
  | .plain, octet :: rest =>
    if octet = ascii '"' then .done () rest
    else if octet = ascii '\\' then quotation .escape rest
    else if octet < 0x20 then
      .fault { cause := .controlCharacter, unread := some (rest.length + 1) } (octet :: rest)
    else quotation .plain rest
  | .escape, octet :: rest =>
    if octet = ascii 'u' then quotation (.unit []) rest
    else if ['"', '\\', '/', 'b', 'f', 'n', 'r', 't'].any (fun letter => octet = ascii letter) then
      quotation .plain rest
    else .fault { cause := .invalidEscape, unread := some rest.length } rest
  | .unit digits, octet :: rest =>
    if digits.length < 3 then quotation (.unit (octet :: digits)) rest
    else if (octet :: digits).all (fun digit => (Text.Digits.hexadecimal? digit).isSome) then
      quotation .plain rest
    else .fault { cause := .invalidEscape, unread := some rest.length } rest

def key : Reader Unit := do
  match ← Reader.peekToken with
  | none => Reader.failNext .endInRecord
  | some octet =>
    if octet = ascii '"' then
      Reader.advance
      quotation .plain
      Reader.colon
    else Reader.failNext .keyMustBeText

inductive Phase
  | value
  /-- A value or an opening bracket has just been read; a comma may follow only a value. -/
  | settled (comma : Bool)
  deriving DecidableEq, Repr

/-- Passes over values within the frames that enclose them, one token for each unit of fuel. -/
def tokens : List UInt8 → Phase → List Frame → Reader Unit
  | [], _, _ => Reader.failNext .endInValue
  | _ :: fuel, .value, frames => do
    match ← Reader.peekToken with
    | none => Reader.failNext .endInValue
    | some octet =>
      if octet = ascii '[' then
        Reader.advance
        tokens fuel (.settled false) (.list :: frames)
      else if octet = ascii '\x7b' then
        Reader.advance
        tokens fuel (.settled false) (.record :: frames)
      else
        scalar octet
        tokens fuel (.settled true) frames
  | _ :: fuel, .settled comma, frames => do
    match frames with
    | [] => pure ()
    | frame :: outer =>
      let resume : Reader Unit := do
        if frame = .record then key
        tokens fuel .value frames
      match ← Reader.peekToken with
      | none => Reader.failNext frame.unclosed
      | some octet =>
        if comma && octet = ascii ',' then
          Reader.advance
          resume
        else if octet = frame.close then
          Reader.advance
          tokens fuel (.settled true) outer
        else if comma then Reader.failNext frame.unseparated
        else resume
where
  scalar (octet : UInt8) : Reader Unit := do
    if octet = ascii 'n' then
      Reader.advance
      Reader.word ['u', 'l', 'l']
    else if octet = ascii 't' then
      Reader.advance
      Reader.word ['r', 'u', 'e']
    else if octet = ascii 'f' then
      Reader.advance
      Reader.word ['a', 'l', 's', 'e']
    else if octet = ascii '-' then
      Reader.advance
      number
    else if isDecimal octet then number
    else if octet = ascii '"' then
      Reader.advance
      quotation .plain
    else Reader.failNext .expectedValue

def value : Reader Unit := fun input => tokens (0 :: 0 :: (input ++ input)) .value [] input

end Herald.Json.Skip
