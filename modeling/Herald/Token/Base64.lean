import Herald.Text.Octets

/-!
Base64 text in the alphabet for addresses, without padding. A final group of two or three symbols
must have no bits set beyond its octets.
-/

namespace Herald.Token.Base64

open Text (ascii)

inductive Fault
  | invalidSymbol (offset : Nat) (symbol : UInt8)
  | invalidLength (length : Nat)
  | invalidLastSymbol (offset : Nat) (symbol : UInt8)
  | invalidPadding
  deriving DecidableEq, Repr

namespace Fault

def message : Fault → String
  | .invalidSymbol offset symbol =>
    "Invalid symbol " ++ toString symbol.toNat ++ ", offset " ++ toString offset ++ "."
  | .invalidLength length => "Invalid input length: " ++ toString length
  | .invalidLastSymbol offset symbol =>
    "Invalid last symbol " ++ toString symbol.toNat ++ ", offset " ++ toString offset ++ "."
  | .invalidPadding => "Invalid padding"

def nested : Fault → String
  | .invalidSymbol offset symbol =>
    "InvalidByte(" ++ toString offset ++ ", " ++ toString symbol.toNat ++ ")"
  | .invalidLength length => "InvalidLength(" ++ toString length ++ ")"
  | .invalidLastSymbol offset symbol =>
    "InvalidLastSymbol(" ++ toString offset ++ ", " ++ toString symbol.toNat ++ ")"
  | .invalidPadding => "InvalidPadding"

end Fault

def symbolValue? (symbol : UInt8) : Option Nat :=
  if ascii 'A' ≤ symbol && symbol ≤ ascii 'Z' then some (symbol.toNat - 65)
  else if ascii 'a' ≤ symbol && symbol ≤ ascii 'z' then some (symbol.toNat - 71)
  else if ascii '0' ≤ symbol && symbol ≤ ascii '9' then some (symbol.toNat + 4)
  else if symbol = ascii '-' then some 62
  else if symbol = ascii '_' then some 63
  else none

def pad : UInt8 := ascii '='

def values (offset : Nat) : List UInt8 → Except Fault (List Nat)
  | [] => .ok []
  | symbol :: rest =>
    match symbolValue? symbol with
    | none => .error (.invalidSymbol offset symbol)
    | some value => (values (offset + 1) rest).map (value :: ·)

def wholeGroup (first second third fourth : Nat) : List UInt8 :=
  let bits := ((first * 64 + second) * 64 + third) * 64 + fourth
  [UInt8.ofNat (bits / 65536), UInt8.ofNat (bits / 256), UInt8.ofNat bits]

/--
The symbols of the last group, of which there may be four. Padding is told apart only after all
symbols were looked at: it may follow two symbols, and nothing else may follow it.
-/
def lastSymbols (start index : Nat) (padding : Option Nat) :
    List UInt8 → Except Fault (List (Nat × UInt8) × Bool)
  | [] => .ok ([], padding.isSome)
  | symbol :: rest =>
    if symbol = pad then
      if index < 2 then .error (.invalidSymbol (start + index) symbol)
      else lastSymbols start (index + 1) (padding.or (some index)) rest
    else
      match padding with
      | some first => .error (.invalidSymbol (start + first) pad)
      | none =>
        match symbolValue? symbol with
        | none => .error (.invalidSymbol (start + index) symbol)
        | some value => do
          let (symbols, padded) ← lastSymbols start (index + 1) none rest
          .ok ((value, symbol) :: symbols, padded)

def lastGroup (start : Nat) (group : List UInt8) : Except Fault (List UInt8) := do
  let (symbols, padded) ← lastSymbols start 0 none group
  if symbols.length < 2 then .error (.invalidLength (start + symbols.length))
  else if padded then .error .invalidPadding
  else
    match symbols with
    | [(first, _), (second, symbol)] =>
      if second % 16 = 0 then .ok ((wholeGroup first second 0 0).take 1)
      else .error (.invalidLastSymbol (start + 1) symbol)
    | [(first, _), (second, _), (third, symbol)] =>
      if third % 4 = 0 then .ok ((wholeGroup first second third 0).take 2)
      else .error (.invalidLastSymbol (start + 2) symbol)
    | (first, _) :: (second, _) :: (third, _) :: (fourth, _) :: _ =>
      .ok (wholeGroup first second third fourth)
    | _ => .ok []

def groups (start : Nat) : List UInt8 → Except Fault (List UInt8)
  | first :: second :: third :: fourth :: fifth :: rest => do
    match ← values start [first, second, third, fourth] with
    | [first, second, third, fourth] =>
      let octets ← groups (start + 4) (fifth :: rest)
      .ok (wholeGroup first second third fourth ++ octets)
    | _ => .ok []
  | group => lastGroup start group

/-- The octets of a text; a lone symbol at its end that is none is told first. -/
def decode (symbols : List UInt8) : Except Fault (List UInt8) :=
  if symbols.isEmpty then .ok []
  else
    match symbols.getLast? with
    | some last =>
      if symbols.length % 4 = 1 ∧ last ≠ pad ∧ (symbolValue? last).isNone then
        .error (.invalidSymbol (symbols.length - 1) last)
      else groups 0 symbols
    | none => .ok []

def symbol (value : Nat) : UInt8 :=
  if value < 26 then UInt8.ofNat (value + 65)
  else if value < 52 then UInt8.ofNat (value + 71)
  else if value < 62 then UInt8.ofNat (value - 4)
  else if value = 62 then ascii '-'
  else ascii '_'

def encode : List UInt8 → List UInt8
  | first :: second :: third :: rest =>
    let bits := (first.toNat * 256 + second.toNat) * 256 + third.toNat
    symbol (bits / 262144) :: symbol (bits / 4096 % 64) :: symbol (bits / 64 % 64)
      :: symbol (bits % 64) :: encode rest
  | [first, second] =>
    let bits := (first.toNat * 256 + second.toNat) * 4
    [symbol (bits / 4096), symbol (bits / 64 % 64), symbol (bits % 64)]
  | [first] =>
    let bits := first.toNat * 16
    [symbol (bits / 64), symbol (bits % 64)]
  | [] => []

end Herald.Token.Base64
