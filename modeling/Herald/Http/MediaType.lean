import Herald.Text.Octets
import Herald.Text.Digits
import Herald.Text.Split

/-!
Media types: a type and a subtype of token characters, then parameters whose values are tokens or
quoted. Letters may be in any case.
-/

namespace Herald.Http

def isTokenCharacter (character : Char) : Bool :=
  character.isAlphanum || "!#$%&'*+-.^_\x60|~".toList.contains character

structure MediaType where
  type : String
  subtype : String
  deriving DecidableEq, Repr

namespace MediaType

inductive Place
  /-- Before a parameter, or in its name; `isFresh` before its first character. -/
  | name (isFresh : Bool)
  /-- In a value that is a token; `isFresh` before its first character. -/
  | token (isFresh : Bool)
  | quoted (isFresh : Bool)
  | afterQuoted

def isParameters : Place → List Char → Bool
  | .name isFresh, [] => isFresh
  | .name true, ' ' :: rest => isParameters (.name true) rest
  | .name isFresh, '=' :: rest => !isFresh && isParameters (.token true) rest
  | .name _, character :: rest => isTokenCharacter character && isParameters (.name false) rest
  | .token _, [] => true
  | .token true, '"' :: rest => isParameters (.quoted true) rest
  | .token isFresh, ';' :: rest => !isFresh && isParameters (.name true) rest
  | .token _, character :: rest => isTokenCharacter character && isParameters (.token false) rest
  | .quoted _, [] => false
  | .quoted false, '"' :: rest => isParameters .afterQuoted rest
  | .quoted _, character :: rest =>
    (0x1f < character.toNat && character.toNat ≠ 0x7f) && isParameters (.quoted false) rest
  | .afterQuoted, [] => true
  | .afterQuoted, ' ' :: rest => isParameters .afterQuoted rest
  | .afterQuoted, ';' :: rest => isParameters (.name true) rest
  | .afterQuoted, _ :: _ => false

def read? (text : String) : Option MediaType :=
  let (essence, parameters) := Text.splitOnce ';' text.toList
  match Text.splitOnce '/' essence with
  | (type, some subtype) =>
    if !type.isEmpty && type.all isTokenCharacter && subtype.all isTokenCharacter
        && (parameters.isNone || !subtype.isEmpty)
        && isParameters (.name true) (parameters.getD []) then
      some ⟨(String.ofList type).toLower, (String.ofList subtype).toLower⟩
    else none
  | (_, none) => none

/-- The subtype before its last plus sign, and what follows that. -/
def parts (mediaType : MediaType) : String × Option String :=
  match mediaType.subtype.toList with
  | [] => ("", none)
  | first :: rest =>
    match Text.splitOnce '+' rest.reverse with
    | (suffix, some name) =>
      (String.ofList (first :: name.reverse), some (String.ofList suffix.reverse))
    | (_, none) => (mediaType.subtype, none)

def isJson (mediaType : MediaType) : Bool :=
  mediaType.type = "application"
    && (mediaType.parts.1 = "json" || mediaType.parts.2 = some "json")

end MediaType

end Herald.Http
