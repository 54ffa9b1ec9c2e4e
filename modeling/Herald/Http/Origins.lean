import Herald.Http.Message

/-!
Which pages may read responses: those whose origin is one of the configured ones, letter by letter.
Requests that only ask what is allowed are answered at once.
-/

namespace Herald.Http

structure Origins where
  allowed : List String
  deriving DecidableEq, Repr

namespace Origins

def isHeaderValue (text : String) : Bool :=
  text.toList.all fun character =>
    (0x20 ≤ character.toNat && character.toNat ≠ 0x7f) || character = '\t'

def wildcard : String := "*"

def wildcardText : String :=
  "Wildcard origin (`*`) cannot be passed to `AllowOrigin::list`. Use `AllowOrigin::any()` instead"

/-- The configured origins that can be header values; a wildcard among them is refused. -/
def ofConfigured? (configured : List String) : Option Origins :=
  let valid := configured.filter isHeaderValue
  if valid.contains wildcard then none else some ⟨valid⟩

def echoed? (origins : Origins) (request : Request) : Option String :=
  (request.headers.first? "origin").filter origins.allowed.contains

def headers (origins : Origins) (request : Request) : Headers :=
  ((origins.echoed? request).map fun origin => ("access-control-allow-origin", origin)).toList
    ++ [("access-control-allow-credentials", "true"),
      ("vary", "origin, access-control-request-method, access-control-request-headers")]

def isPreflight (request : Request) : Bool := request.method = "OPTIONS"

def preflight (origins : Origins) (request : Request) (allow : Option String) : Response :=
  ⟨200,
    (allow.map fun methods => ("allow", methods)).toList
      ++ origins.headers request
      ++ [("access-control-allow-methods", "GET,PATCH,OPTIONS"),
        ("access-control-allow-headers", "authorization,accept,cache-control")],
    ""⟩

def decorate (origins : Origins) (request : Request) (response : Response) : Response :=
  { response with headers := response.headers ++ origins.headers request }

end Origins

end Herald.Http
