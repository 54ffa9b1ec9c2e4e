import Herald.Text.Octets
import Herald.Text.Split

/-!
Requests and responses. The names of headers do not distinguish the case of letters, and of several
headers of one name the first counts.
-/

namespace Herald.Http

abbrev Headers := List (String × String)

def Headers.first? (headers : Headers) (name : String) : Option String :=
  (headers.find? fun header => header.1.toLower = name).map (·.2)

structure Request where
  method : String
  path : String
  query : String
  headers : Headers
  body : List UInt8
  deriving DecidableEq, Repr

/-- A request for a target: a path, then a query after a question mark; a fragment is left off. -/
def Request.ofTarget (method target : String) (headers : Headers) (body : List UInt8) : Request :=
  let (path, query) := Text.splitOnce '?' (Text.splitOnce '#' target.toList).1
  ⟨method, String.ofList path, String.ofList (query.getD []), headers, body⟩

def isText (value : String) : Bool :=
  value.toList.all fun character =>
    (0x20 ≤ character.toNat && character.toNat < 0x7f) || character = '\t'

def Request.text? (request : Request) (name : String) : Option String :=
  (request.headers.first? name).filter isText

structure Response where
  status : Nat
  headers : Headers
  body : String
  deriving DecidableEq, Repr

namespace Response

def contentType? (response : Response) : Option String := response.headers.first? "content-type"

def allow? (response : Response) : Option String := response.headers.first? "allow"

def empty (status : Nat) : Response := ⟨status, [], ""⟩

def plain (status : Nat) (body : String) : Response :=
  ⟨status, [("content-type", "text/plain; charset=utf-8")], body⟩

def json (status : Nat) (body : String) : Response :=
  ⟨status, [("content-type", "application/json")], body⟩

def eventStream : Response :=
  ⟨200, [("content-type", "text/event-stream"), ("cache-control", "no-cache")], ""⟩

def withoutBody (response : Response) : Response := { response with body := "" }

end Response

end Herald.Http
