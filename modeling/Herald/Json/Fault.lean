import Herald.Json.Value
import Herald.Text.Octets
import Herald.Text.Quoted

/-!
What can be wrong with a JSON text: its syntax, or a value of another shape than the one asked for.
A fault knows how many octets were left unread where it arose, and the path of members and positions
that leads to it.
-/

namespace Herald.Json

inductive Found
  | null
  | boolean (value : Bool)
  | number (value : Number)
  | text (value : String)
  | list
  | record
  deriving DecidableEq, Repr

def Found.describe : Found → String
  | .null => "null"
  | .boolean value => "boolean " ++ "`" ++ toString value ++ "`"
  | .number (.whole value) => "integer `" ++ toString value ++ "`"
  | .number (.real value) => "floating point `" ++ value.text ++ "`"
  | .text value => "string " ++ Text.quoted value
  | .list => "sequence"
  | .record => "map"

def Value.found : Value → Found
  | .null => .null
  | .boolean value => .boolean value
  | .number value => .number value
  | .text value => .text value
  | .list _ => .list
  | .record _ => .record

inductive Mismatch
  | wrongType (found : Found) (expected : String)
  | wrongValue (found : Found) (expected : String)
  | wrongLength (length : Nat) (expected : String)
  | unknownVariant (name : String) (allowed : List String)
  | missingField (name : String)
  | duplicateField (name : String)
  | refused (reason : String)
  deriving DecidableEq, Repr

def Mismatch.message : Mismatch → String
  | .wrongType found expected => "invalid type: " ++ found.describe ++ ", expected " ++ expected
  | .wrongValue found expected => "invalid value: " ++ found.describe ++ ", expected " ++ expected
  | .wrongLength length expected =>
    "invalid length " ++ toString length ++ ", expected " ++ expected
  | .unknownVariant name allowed =>
    "unknown variant `" ++ name ++ "`, expected one of "
      ++ ", ".intercalate (allowed.map fun variant => "`" ++ variant ++ "`")
  | .missingField name => "missing field `" ++ name ++ "`"
  | .duplicateField name => "duplicate field `" ++ name ++ "`"
  | .refused reason => reason

inductive Cause
  | endInValue
  | endInString
  | endInList
  | endInRecord
  | expectedColon
  | expectedListCommaOrEnd
  | expectedRecordCommaOrEnd
  | expectedWord
  | expectedValue
  | invalidEscape
  | invalidNumber
  | numberOutOfRange
  | invalidCodePoint
  | controlCharacter
  | keyMustBeText
  | loneLeadingSurrogate
  | trailingComma
  | trailingCharacters
  | endOfEscapedPair
  | tooDeep
  | mismatch (mismatch : Mismatch)
  deriving DecidableEq, Repr

def Cause.message : Cause → String
  | .endInValue => "EOF while parsing a value"
  | .endInString => "EOF while parsing a string"
  | .endInList => "EOF while parsing a list"
  | .endInRecord => "EOF while parsing an object"
  | .expectedColon => "expected `:`"
  | .expectedListCommaOrEnd => "expected `,` or `]`"
  | .expectedRecordCommaOrEnd => "expected `,` or `\x7d`"
  | .expectedWord => "expected ident"
  | .expectedValue => "expected value"
  | .invalidEscape => "invalid escape"
  | .invalidNumber => "invalid number"
  | .numberOutOfRange => "number out of range"
  | .invalidCodePoint => "invalid unicode code point"
  | .controlCharacter => "control character (\\u0000-\\u001F) found while parsing a string"
  | .keyMustBeText => "key must be a string"
  | .loneLeadingSurrogate => "lone leading surrogate in hex escape"
  | .trailingComma => "trailing comma"
  | .trailingCharacters => "trailing characters"
  | .endOfEscapedPair => "unexpected end of hex escape"
  | .tooDeep => "recursion limit exceeded"
  | .mismatch problem => problem.message

def Cause.isSyntax : Cause → Bool
  | .mismatch _ => false
  | _ => true

inductive Segment
  | position (index : Nat)
  | member (key : String)
  | unknown
  deriving DecidableEq, Repr

structure Fault where
  cause : Cause
  /-- How many octets were unread; none until the fault is placed. -/
  unread : Option Nat := none
  path : List Segment := []
  deriving DecidableEq, Repr

namespace Fault

def ofMismatch (mismatch : Mismatch) : Fault := { cause := .mismatch mismatch }

def placed (fault : Fault) (unread : Nat) : Fault :=
  match fault.unread with
  | none => { fault with unread := some unread }
  | some _ => fault

def under (fault : Fault) (segment : Segment) : Fault := { fault with path := segment :: fault.path }

def position? (fault : Fault) (input : List UInt8) : Option Text.Position :=
  fault.unread.map (Text.Position.before input)

def message (fault : Fault) (input : List UInt8) : String :=
  match fault.position? input with
  | none => fault.cause.message
  | some position =>
    fault.cause.message ++ " at line " ++ toString position.line ++ " column "
      ++ toString position.column

def nested (fault : Fault) (input : List UInt8) : String :=
  let position := (fault.position? input).getD ⟨0, 0⟩
  "Error(" ++ Text.quoted fault.cause.message ++ ", line: " ++ toString position.line
    ++ ", column: " ++ toString position.column ++ ")"

def pathText : List Segment → String
  | [] => ""
  | .position index :: rest => "[" ++ toString index ++ "]" ++ tail rest
  | .member key :: rest => key ++ tail rest
  | .unknown :: rest => "?" ++ tail rest
where
  tail : List Segment → String
    | [] => ""
    | .position index :: rest => "[" ++ toString index ++ "]" ++ tail rest
    | .member key :: rest => "." ++ key ++ tail rest
    | .unknown :: rest => ".?" ++ tail rest

def messageWithPath (fault : Fault) (input : List UInt8) : String :=
  if fault.path.all (· = .unknown) then fault.message input
  else pathText fault.path ++ ": " ++ fault.message input

end Fault

end Herald.Json
