import Herald.Json.Document
import Herald.Notification.Text
import Herald.Token.Base64
import Herald.Token.Sha256

/-!
Access tokens: three parts with dots between them, a header that names the algorithm, claims, and the
keyed digest of the first two parts as presented. A token is good for the user its claims name until
its expiry and a leeway after it.
-/

namespace Herald.Token

open Json (Reader Slot)
open Text (ascii)

inductive Fault
  | invalidToken
  | invalidSignature
  | expiredSignature
  | invalidAudience
  | invalidAlgorithm
  | json (fault : Json.Fault) (input : List UInt8)
  | base64 (fault : Base64.Fault)
  deriving DecidableEq, Repr

namespace Fault

def message : Fault → String
  | .invalidToken => "InvalidToken"
  | .invalidSignature => "InvalidSignature"
  | .expiredSignature => "ExpiredSignature"
  | .invalidAudience => "InvalidAudience"
  | .invalidAlgorithm => "InvalidAlgorithm"
  | .json fault input => "JSON error: " ++ fault.message input
  | .base64 fault => "Base64 error: " ++ fault.message

def nested (fault : Fault) : String :=
  "Error(" ++
    (match fault with
    | .json fault input => "Json(" ++ fault.nested input ++ ")"
    | .base64 fault => "Base64(" ++ fault.nested ++ ")"
    | fault => fault.message) ++ ")"

end Fault

inductive Algorithm
  | hs256
  | hs384
  | hs512
  | es256
  | es384
  | rs256
  | rs384
  | rs512
  | ps256
  | ps384
  | ps512
  | edDsa
  deriving DecidableEq, Repr

namespace Algorithm

def all : List Algorithm :=
  [.hs256, .hs384, .hs512, .es256, .es384, .rs256, .rs384, .rs512, .ps256, .ps384, .ps512, .edDsa]

def name : Algorithm → String
  | .hs256 => "HS256"
  | .hs384 => "HS384"
  | .hs512 => "HS512"
  | .es256 => "ES256"
  | .es384 => "ES384"
  | .rs256 => "RS256"
  | .rs384 => "RS384"
  | .rs512 => "RS512"
  | .ps256 => "PS256"
  | .ps384 => "PS384"
  | .ps512 => "PS512"
  | .edDsa => "EdDSA"

end Algorithm

/-! The header. -/

structure Header where
  algorithm : Algorithm
  others : List Json.Value

def textFields : List String :=
  ["typ", "cty", "jku", "kid", "x5u", "x5t", "x5t#S256", "enc", "zip", "url", "nonce"]

def textListFields : List String := ["x5c", "crit"]

/--
The fields that a header may have. What is under `jwk` has to spell a key, or the header is refused; that
is left out here, and any value is read over.
-/
def headerSlots : List (Slot Header) :=
  (Slot.required "alg" (Json.Shape.named Algorithm.all Algorithm.name)
      fun algorithm header => { header with algorithm })
    :: Slot.optional "jwk" (Json.Shape.optional (Json.Value.read (Json.nestingLimit - 1)))
        (fun _ header => header)
    :: textFields.map (fun name =>
        Slot.optional name (Json.Shape.optional Json.Shape.text) fun _ header => header)
    ++ textListFields.map fun name =>
        Slot.optional name (Json.Shape.optional (Json.Shape.list Json.Shape.text))
          fun _ header => header

/-- A member that is no known field is kept and has to be a text in the end. -/
def keepOther : String → Reader (Header → Header) := fun _ => do
  let value ← Json.Value.read (Json.nestingLimit - 1)
  pure fun header => { header with others := header.others ++ [value] }

def onlyTexts : List Json.Value → Except Json.Mismatch Unit
  | [] => .ok ()
  | .text _ :: rest => onlyTexts rest
  | value :: _ => .error (.wrongType value.found "a string")

def headerReader : Reader Header := Json.Shape.byFirst fun octet =>
  if octet = ascii '\x7b' then Reader.inRecord do
    let header ← Slot.members headerSlots keepOther ⟨.hs256, []⟩
    Json.Shape.checked (onlyTexts header.others)
    pure header
  else Json.Shape.unexpected "struct Header"

/-! The claims. -/

structure Claims where
  subject : Identifier
  expiry : Nat
  deriving DecidableEq, Repr

def claimsSlots : List (Slot Claims) :=
  [.required "sub" Identifier.reader fun subject claims => { claims with subject },
    .required "exp" Json.Shape.natural fun expiry claims => { claims with expiry }]

def claimsReader : Reader Claims :=
  Slot.record "struct AccessClaims" "struct AccessClaims with 2 elements" claimsSlots ⟨.nil, 0⟩

/-- Reads on where a fault stopped the reader. -/
def tolerated (reader : Reader Unit) : Reader Unit := fun input =>
  .done () (reader input).rest

/-- A claim that is one token; brackets are entered and left if nothing is inside. -/
def flatClaim : Reader Unit := Json.Shape.byFirst fun octet =>
  if octet = ascii '[' then Reader.inList (Reader.refuse (.refused "list"))
  else if octet = ascii '\x7b' then Reader.inRecord (Reader.refuse (.refused "record"))
  else Json.Shape.unexpected "claim"

def isAudience : Json.Value → Bool
  | .text _ => true
  | .list [] => false
  | .list items => items.all fun item => match item with
    | .text _ => true
    | _ => false
  | _ => false

def audienceReader : Reader Bool := fun input =>
  match Json.Shape.optional (Json.Value.read (Json.nestingLimit - 1)) input with
  | .done none rest => .done false rest
  | .done (some value) rest => .done (isAudience value) rest
  | .fault _ rest => .done false rest

def audienceSlots : List (Slot Bool) :=
  [.optional "exp" (tolerated flatClaim) fun _ named => named,
    .optional "nbf" (tolerated flatClaim) fun _ named => named,
    .optional "sub" (tolerated do
      let _ ← Json.Shape.optional Json.Shape.text) fun _ named => named,
    .optional "iss" (tolerated do
      let _ ← Json.Shape.optional (Json.Value.read (Json.nestingLimit - 1))) fun _ named => named,
    .optional "aud" audienceReader fun audience _ => audience]

/-- Reads the claims again for whether they name an audience. Claims of other types are passed over. -/
def audienceNamed : Reader Bool :=
  Slot.record "struct ClaimsForValidation" "struct ClaimsForValidation with 5 elements" audienceSlots
    false

/-! Verification. -/

def parsed {α : Type} (reader : Reader α) (input : List UInt8) : Except Fault α :=
  match Reader.whole reader input with
  | .done value _ => .ok value
  | .fault fault _ => .error (.json fault input)

def decoded (symbols : List UInt8) : Except Fault (List UInt8) :=
  match Base64.decode symbols with
  | .ok octets => .ok octets
  | .error fault => .error (.base64 fault)

def dot : UInt8 := ascii '.'

def splitLast? (octets : List UInt8) : Option (List UInt8 × List UInt8) :=
  match octets.reverse.dropWhile (· ≠ dot) with
  | [] => none
  | _ :: before => some (before.reverse, (octets.reverse.takeWhile (· ≠ dot)).reverse)

/-- How many seconds after its expiry a token is still good. -/
def leeway : Nat := 60

structure Parts where
  header : List UInt8
  claims : List UInt8
  signed : List UInt8
  signature : List UInt8
  deriving DecidableEq, Repr

def Parts.ofToken? (token : List UInt8) : Option Parts :=
  (splitLast? token).bind fun (signed, signature) =>
    (splitLast? signed).map fun (header, claims) => ⟨header, claims, signed, signature⟩

def signedClaims (secret token : List UInt8) : Except Fault (List UInt8) := do
  match Parts.ofToken? token with
  | none => .error .invalidToken
  | some parts =>
    let header ← parsed headerReader (← decoded parts.header)
    if header.algorithm ≠ .hs256 then .error .invalidAlgorithm
    else
      let signature ← decoded parts.signature
      if signature = Sha256.keyed secret parts.signed then decoded parts.claims
      else .error .invalidSignature

/-- The user that a token is good for under a secret, which may be any octets. -/
def verifyUnder (secret : List UInt8) (now : Nat) (token : String) : Except Fault Identifier := do
  let payload ← signedClaims secret (Text.octets token)
  let claims ← parsed claimsReader payload
  let named ← parsed audienceNamed payload
  if claims.expiry + leeway < now then .error .expiredSignature
  else if named then .error .invalidAudience
  else .ok claims.subject

def verify (secret : String) (now : Nat) (token : String) : Except Fault Identifier :=
  verifyUnder (Text.octets secret) now token

end Herald.Token
