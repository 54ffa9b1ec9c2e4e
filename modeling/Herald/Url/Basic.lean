import Herald.Text.Blank
import Herald.Text.Percent
import Herald.Url.Address

/-!
Absolute locators: a scheme, then either an authority with credentials, a host and its number, or only a
path. The schemes of the web always have a host, and theirs may be written with fewer or more slashes
and with slashes that lean back.
-/

namespace Herald

inductive Url.Host
  | name (text : String)
  | address (address : Url.Address)
  deriving DecidableEq, Repr

structure Url where
  scheme : String
  username : List Char
  password : Option (List Char)
  host : Option Url.Host
  tcpPort : Option Nat
  path : List Char
  query : Option (List Char)
  deriving DecidableEq, Repr

namespace Url

def Host.text : Host → String
  | .name text => text
  | .address value => value.text

/-! The scheme. -/

def isSchemeCharacter (character : Char) : Bool :=
  character.isAlphanum || character = '+' || character = '-' || character = '.'

def scheme? (characters : List Char) : Option (String × List Char) :=
  match Text.splitOnce ':' characters with
  | (first :: others, some rest) =>
    if first.isAlpha && others.all isSchemeCharacter then
      some (String.ofList ((first :: others).map Char.toLower), rest)
    else none
  | _ => none

def webSchemes : List String := ["http", "https", "ws", "wss", "ftp"]

/-! Hosts and their numbers. -/

def isForbidden (character : Char) : Bool :=
  "\x00\t\n\r #/:<>?@[\\]^|".toList.contains character

def isForbiddenInDomain (character : Char) : Bool :=
  isForbidden character || character.toNat < 0x20 || character = '%' || character.toNat = 0x7f

def bracketed? (characters : List Char) : Option Host :=
  if characters.getLast? = some ']' then
    (Address.read? (characters.drop 1).dropLast).map .address
  else none

def encoded (characters : List Char) : String :=
  (Text.ofOctets? (Text.Percent.encodeControls (Text.octets (String.ofList characters)))).getD ""

def opaqueHost? (characters : List Char) : Option Host :=
  if characters.head? = some '[' then bracketed? characters
  else if characters.any isForbidden then none
  else some (.name (encoded characters))

def domain? (characters : List Char) : Option Host := do
  if characters.head? = some '[' then bracketed? characters
  else
    let decoded ← Text.ofOctets? (Text.Percent.decode (Text.octets (String.ofList characters)))
    if decoded.isEmpty || decoded.toList.any isForbiddenInDomain then none
    else some (.name decoded.toLower)

/-- The host's characters and what follows them: colons within brackets belong to the host. -/
def splitHost (inside : Bool) : List Char → List Char × List Char
  | [] => ([], [])
  | character :: rest =>
    if character = ':' && !inside then ([], character :: rest)
    else
      let inside := if character = '[' then true else if character = ']' then false else inside
      let (host, rest) := splitHost inside rest
      (character :: host, rest)

def portLimit : Nat := 65535

def tcpPort? (characters : List Char) : Option (Option Nat) := do
  let digits ← characters.mapM Address.decimalDigit?
  let value := Text.Digits.value 10 digits
  if portLimit < value then none
  else if digits.isEmpty then some none
  else some (some value)

/-! The authority. -/

structure Authority where
  username : List Char
  password : Option (List Char)
  host : Option Host
  tcpPort : Option Nat

def splitCredentials (characters : List Char) : Option (List Char) × List Char :=
  match (Text.splitOnce '@' characters.reverse) with
  | (host, some credentials) => (some credentials.reverse, host.reverse)
  | (_, none) => (none, characters)

/-- An authority; `isLast` tells whether the locator ends with it. -/
def authority? (isWeb isLast : Bool) (characters : List Char) : Option Authority := do
  let (credentials, place) := splitCredentials characters
  if credentials = some [] ∧ place = [] ∧ !isLast then none
  else
    let (username, password) := Text.splitOnce ':' (credentials.getD [])
    let password := password.filter (!·.isEmpty)
    let (hostText, rest) := splitHost false place
    let host ← if isWeb then domain? hostText else opaqueHost? hostText
    let host := if hostText.isEmpty then none else some host
    let tcpPort ← tcpPort? (rest.drop 1)
    if host.isNone ∧ (rest ≠ [] ∨ username ≠ [] ∨ password.isSome) then none
    else some ⟨username, password, host, tcpPort⟩

/-! The path. -/

def stepNames (name : String) : List String :=
  ["." ++ name, "%2e" ++ name, "%2E" ++ name]

def isHere (segment : List Char) : Bool := (stepNames "").contains (String.ofList segment)

def isBack (segment : List Char) : Bool :=
  ((stepNames "").flatMap stepNames).contains (String.ofList segment)

/-- The segments of a path, where steps back take the segment before them away. -/
def walked (taken : List (List Char)) : List (List Char) → List (List Char)
  | [] => taken
  | segment :: rest =>
    if isBack segment then
      walked (if rest.isEmpty then taken.dropLast ++ [[]] else taken.dropLast) rest
    else if isHere segment then walked (if rest.isEmpty then taken ++ [[]] else taken) rest
    else walked (taken ++ [segment]) rest

def pathOf (characters : List Char) : List Char :=
  match characters with
  | '/' :: rest => '/' :: Text.join '/' (walked [] (Text.split '/' rest))
  | characters => characters

/-! The whole. -/

def isAuthorityEnd (isWeb : Bool) (character : Char) : Bool :=
  character = '/' || character = '?' || character = '#' || (isWeb && character = '\\')

def pathAndQuery (characters : List Char) : List Char × Option (List Char) :=
  Text.splitOnce '?' (Text.splitOnce '#' characters).1

def located (scheme : String) (isWeb : Bool) (characters : List Char) : Option Url := do
  let isPart (character : Char) : Bool := !isAuthorityEnd isWeb character
  let rest := characters.dropWhile isPart
  let authority ← authority? isWeb rest.isEmpty (characters.takeWhile isPart)
  let (path, query) := pathAndQuery rest
  let path := if isWeb then path.map fun character => if character = '\\' then '/' else character
    else path
  some
    { scheme, query
      username := authority.username
      password := authority.password
      host := authority.host
      tcpPort := authority.tcpPort
      path := pathOf path }

/-- The characters that are read: tabs and line breaks are passed over, and so are controls and spaces
at both ends. -/
def readable (text : String) : List Char :=
  let isEdge (character : Char) : Bool := character.toNat ≤ 0x20
  let characters := ((text.toList.dropWhile isEdge).reverse.dropWhile isEdge).reverse
  characters.filter fun character => !(character = '\t' || character = '\n' || character = '\r')

def read? (text : String) : Option Url := do
  let (scheme, rest) ← scheme? (readable text)
  if webSchemes.contains scheme then
    located scheme true (rest.dropWhile fun character => character = '/' || character = '\\')
  else
    match rest with
    | '/' :: '/' :: rest => located scheme false rest
    | rest =>
      let (path, query) := pathAndQuery rest
      some ⟨scheme, [], none, none, none, pathOf path, query⟩

end Url

end Herald
