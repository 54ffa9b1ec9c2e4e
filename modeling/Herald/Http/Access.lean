import Herald.Http.Message
import Herald.Text.Blank
import Herald.Token.Access

/-!
Who may make a request: users present the access token issued to them, and services the key that is
configured for them.
-/

namespace Herald.Http

def after? : (start characters : List Char) → Option (List Char)
  | [], characters => some characters
  | _ :: _, [] => none
  | expected :: start, character :: rest =>
    if expected = character then after? start rest else none

def bearerScheme : List Char := "Bearer ".toList

/-- The token of the first authorization header, without the blanks around it. -/
def Request.bearerToken? (request : Request) : Option String := do
  let value ← request.text? "authorization"
  let token ← after? bearerScheme value.toList
  let token := Text.trimmed (String.ofList token)
  if token.isEmpty then none else some token

def Request.user? (request : Request) (secret : String) (now : Nat) : Option Identifier := do
  let token ← request.bearerToken?
  (Token.verify secret now token).toOption

def unauthorized : Response := .plain 401 "Unauthorized"

def Request.presentedKey? (request : Request) : Option String := do
  let value ← request.text? "x-internal-api-key"
  let key := Text.trimmed value
  if key.isEmpty then none else some key

/-- Lets a request through that presents the configured key; without one no request gets through. -/
def Request.admitted (request : Request) (key? : Option String) : Except Response Unit :=
  match key? with
  | none => .error (.plain 403 "Forbidden")
  | some key => if request.presentedKey? = some key then .ok () else .error unauthorized

end Herald.Http
