import Herald.Json.Reader
import Herald.Text.Digits

/-!
Quoted texts. The reader is a machine with one move for each octet, so every fault lies right after
the octet that shows it. The printer escapes the quotation mark, the backslash and the characters
below the space; everything else stands for itself.
-/

namespace Herald.Json.Quotation

open Text (ascii)

inductive Mode
  | plain
  | escape
  /-- Within the four digits of a code unit, maybe the second unit of a pair. -/
  | unit (lead : Option Nat) (digits : List UInt8)
  | paired (lead : Nat)
  | pairedEscape (lead : Nat)
  deriving DecidableEq, Repr

inductive Move
  | go (mode : Mode) (gained : List UInt8)
  | close
  | stop (cause : Cause)
  deriving DecidableEq, Repr

def isLeading (unit : Nat) : Bool := 0xD800 ≤ unit && unit ≤ 0xDBFF

def isTrailing (unit : Nat) : Bool := 0xDC00 ≤ unit && unit ≤ 0xDFFF

def codeOctets (code : Nat) : List UInt8 := String.utf8EncodeChar (Char.ofNat code)

def unitValue? (digits : List UInt8) : Option Nat :=
  (digits.mapM Text.Digits.hexadecimal?).map (Text.Digits.value 16)

def unitMove (lead : Option Nat) (unit : Nat) : Move :=
  match lead with
  | none =>
    if isTrailing unit then .stop .loneLeadingSurrogate
    else if isLeading unit then .go (.paired unit) []
    else .go .plain (codeOctets unit)
  | some lead =>
    if isTrailing unit then
      .go .plain (codeOctets ((lead - 0xD800) * 0x400 + (unit - 0xDC00) + 0x10000))
    else .stop .loneLeadingSurrogate

def escapeMove (octet : UInt8) : Move :=
  if octet = ascii '"' then .go .plain [ascii '"']
  else if octet = ascii '\\' then .go .plain [ascii '\\']
  else if octet = ascii '/' then .go .plain [ascii '/']
  else if octet = ascii 'b' then .go .plain [8]
  else if octet = ascii 'f' then .go .plain [12]
  else if octet = ascii 'n' then .go .plain [10]
  else if octet = ascii 'r' then .go .plain [13]
  else if octet = ascii 't' then .go .plain [9]
  else if octet = ascii 'u' then .go (.unit none []) []
  else .stop .invalidEscape

def Mode.move (octet : UInt8) : Mode → Move
  | .plain =>
    if octet = ascii '"' then .close
    else if octet = ascii '\\' then .go .escape []
    else if octet < 0x20 then .stop .controlCharacter
    else .go .plain [octet]
  | .escape => escapeMove octet
  | .unit lead digits =>
    if digits.length < 3 then .go (.unit lead (digits ++ [octet])) []
    else
      match unitValue? (digits ++ [octet]) with
      | none => .stop .invalidEscape
      | some value => unitMove lead value
  | .paired lead => if octet = ascii '\\' then .go (.pairedEscape lead) [] else .stop .endOfEscapedPair
  | .pairedEscape lead =>
    if octet = ascii 'u' then .go (.unit (some lead) []) [] else .stop .endOfEscapedPair

/-- The octets that a quotation spells, after what is gained so far in reverse. -/
def contents (mode : Mode) (gained : List UInt8) : Reader (List UInt8)
  | [] => .fault { cause := .endInString, unread := some 0 } []
  | octet :: rest =>
    match mode.move octet with
    | .go mode more => contents mode (more.reverse ++ gained) rest
    | .close => .done gained.reverse rest
    | .stop cause => .fault { cause, unread := some rest.length } rest

/--
The text of a quotation whose opening mark has been read. Octets that spell no text are a fault at
the closing mark.
-/
def text : Reader String := fun input =>
  match contents .plain [] input with
  | .done octets rest =>
    match Text.ofOctets? octets with
    | some text => .done text rest
    | none => .fault { cause := .invalidCodePoint, unread := some (rest.length + 1) } rest
  | .fault fault rest => .fault fault rest

def quoted : Reader String := do
  Reader.advance
  text

def escaped (character : Char) : List Char :=
  if character = '"' then ['\\', '"']
  else if character = '\\' then ['\\', '\\']
  else if character = '\x08' then ['\\', 'b']
  else if character = '\x0c' then ['\\', 'f']
  else if character = '\n' then ['\\', 'n']
  else if character = '\r' then ['\\', 'r']
  else if character = '\t' then ['\\', 't']
  else if character.toNat < 0x20 then ['\\', 'u'] ++ Text.Digits.text 16 4 character.toNat
  else [character]

def print (text : String) : String :=
  "\"" ++ String.ofList (text.toList.flatMap escaped) ++ "\""

end Herald.Json.Quotation
