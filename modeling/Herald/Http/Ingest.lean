import Herald.Event.Wire
import Herald.Http.Access
import Herald.Http.MediaType
import Herald.Json.Shape

/-!
Events that services hand in: a list in JSON, from a caller with the configured key. Either the whole
list is taken or nothing of it.
-/

namespace Herald.Http.Ingest

def bodyLimit : Nat := 2097152

def isJson (request : Request) : Bool :=
  match (request.text? "content-type").bind MediaType.read? with
  | some mediaType => mediaType.isJson
  | none => false

/-- The reader of a list of events; what follows the list is not looked at. -/
def reader : Json.Reader (List Event) := Json.Shape.list (Event.read (Json.nestingLimit - 1))

def rejection (fault : Json.Fault) (body : List UInt8) : Response :=
  if fault.cause.isSyntax then
    .plain 400 ("Failed to parse the request body as JSON: " ++ fault.messageWithPath body)
  else
    .plain 422
      ("Failed to deserialize the JSON body into the target type: " ++ fault.messageWithPath body)

def readBody (body : List UInt8) : Except Response (List Event) :=
  match reader body with
  | .done events _ => .ok events
  | .fault fault _ => .error (rejection fault body)

/-- The events of a request, or the response that turns it down: the key is looked at first, then the
media type, the size, and the text. -/
def events (key? : Option String) (request : Request) : Except Response (List Event) := do
  request.admitted key?
  if !isJson request then
    .error (.plain 415 "Expected request with `Content-Type: application/json`")
  else if bodyLimit < request.body.length then
    .error (.plain 413 "Failed to buffer the request body: length limit exceeded")
  else readBody request.body

end Herald.Http.Ingest
