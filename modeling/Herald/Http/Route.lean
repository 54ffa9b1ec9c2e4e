import Herald.Identifier
import Herald.Text.Percent
import Herald.Http.Message

/-!
The paths that requests may be for, and the methods each of them takes. Paths are compared as they
are written; only the one segment that is an id is decoded.
-/

namespace Herald.Http

inductive Route
  | health
  | history
  | unreadCount
  | markRead (segment : String)
  | markAllRead
  | stream
  | events
  | document
  deriving DecidableEq, Repr

namespace Route

def markedSegment? (path : String) : Option String :=
  match Text.split '/' path.toList with
  | [[], collection, segment, action] =>
    if collection = "notifications".toList ∧ action = "read".toList then some (String.ofList segment)
    else none
  | _ => none

def ofPath? (path : String) : Option Route :=
  if path = "/health" then some .health
  else if path = "/notifications" then some .history
  else if path = "/notifications/unread-count" then some .unreadCount
  else if path = "/notifications/read-all" then some .markAllRead
  else if path = "/notifications/stream" then some .stream
  else if path = "/events" then some .events
  else if path = "/api-docs/openapi2.json" then some .document
  else (markedSegment? path).map .markRead

/-- A route that is read also answers requests for its head. -/
def methods : Route → List String
  | .markRead _ | .markAllRead => ["PATCH"]
  | .events => ["POST"]
  | _ => ["GET", "HEAD"]

def allow (route : Route) : String := ",".intercalate route.methods

end Route

inductive SegmentFault
  | illFormed
  | noIdentifier (fault : Identifier.Fault)
  deriving DecidableEq, Repr

def SegmentFault.message : SegmentFault → String
  | .illFormed => "Invalid UTF-8 in `id`"
  | .noIdentifier fault => fault.message

def identifier? (segment : String) : Except SegmentFault Identifier :=
  match Text.ofOctets? (Text.Percent.decode (Text.octets segment)) with
  | none => .error .illFormed
  | some text => (Identifier.read text).mapError .noIdentifier

end Herald.Http
