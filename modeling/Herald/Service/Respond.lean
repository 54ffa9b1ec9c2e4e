import Herald.Api.Document
import Herald.Http.Ingest
import Herald.Http.Origins
import Herald.Http.Query
import Herald.Http.Route
import Herald.Json.Pointer
import Herald.Service.Basic

/-!
How a service answers requests. A user's requests are looked at only once their token is accepted, and
then only ever touch that user's history and stream.
-/

namespace Herald.Service

open Http (Request Response Route)

structure Reply where
  response : Response
  opened : Option Live.Subscription
  deriving DecidableEq, Repr

def Reply.of (response : Response) : Reply := ⟨response, none⟩

def ofFailure (failure : Failure) : Response := .plain failure.kind.status failure.kind.body

def envelope (status : Nat) (data : String) : Response :=
  .json status (Json.Printer.record [("status_code", Json.Printer.natural status), ("data", data)])

def ofResult {α : Type} (print : α → String) : Except Failure α → Response
  | .ok value => envelope 200 (print value)
  | .error failure => ofFailure failure

def countText (name : String) (count : Nat) : String :=
  Json.Printer.record [(name, Json.Printer.natural count)]

/-! What requests come down to. -/

/-- An answer that the store may be asked for, or a new stream of a user. -/
inductive Errand
  | consult (plan : Store.Plan Response)
  | listen (user : Identifier)

namespace Errand

/-- Answers without asking the store. -/
def ofResponse (response : Response) : Errand := .consult (pure response)

/-- Asks the store and answers with what it says. -/
def ofAttempt {α : Type} (attempt : Store.Attempt α) (print : α → String) : Errand := .consult do
  let result ← attempt.run
  pure (ofResult print (result.mapError Failure.ofStore))

end Errand

/-! The requests of a user. -/

def history (user : Identifier) (request : Request) : Errand :=
  match Http.PageQuery.read request.query with
  | .error fault =>
    .ofResponse (.plain 400 ("Failed to deserialize query string: " ++ fault.message))
  | .ok query => .ofAttempt (History.list user query.page query.size) History.Page.print

def unreadCount (user : Identifier) : Errand :=
  .ofAttempt (History.countUnread user) (countText "count")

def markRead (user : Identifier) (segment : String) : Errand :=
  match Http.identifier? segment with
  | .error fault => .ofResponse (.plain 400 ("Invalid URL: " ++ fault.message))
  | .ok id => .ofAttempt (History.markRead user id) Notification.print

def markAllRead (user : Identifier) : Errand :=
  .ofAttempt (History.markAllRead user) (countText "updated")

/-- The errand of the user whose token a request presents. -/
def withUser (settings : Settings) (now : Nat) (request : Request) (next : Identifier → Errand) :
    Errand :=
  match request.user? settings.tokenSecret now with
  | some user => next user
  | none => .ofResponse Http.unauthorized

/-- The errand of a request, if it is not one of another service. -/
def errand? (settings : Settings) (now : Nat) (request : Request) : Route → Option Errand
  | .health => some (.ofResponse (.plain 200 "healthy"))
  | .history => some (withUser settings now request fun user => history user request)
  | .unreadCount => some (withUser settings now request unreadCount)
  | .markRead segment => some (withUser settings now request fun user => markRead user segment)
  | .markAllRead => some (withUser settings now request markAllRead)
  | .stream => some (withUser settings now request .listen)
  | .events => none
  | .document => some (.ofResponse (.json 200 Api.document.print))

/-! Running errands. -/

def openStream (user : Identifier) : StateM Service Reply := do
  let (manager, result) := (← get).manager.subscribe user
  modify fun service => { service with manager }
  match result with
  | .ok subscription => pure ⟨.eventStream, some subscription⟩
  | .error _ => pure (.of (.plain 500 "INTERNAL SERVER ERROR"))

def Errand.reply : Errand → StateM Service Reply
  | .consult plan => do pure (.of (← perform plan))
  | .listen user => openStream user

/-! The requests of other services. -/

/-- Publishes the events of a request, all of them or none. -/
def accept {Handler : Type} {m : Type → Type} [Monad m] (handle : Handler → Event → m Unit)
    (publisher : Publisher Handler) (key? : Option String) (request : Request) : m Response :=
  match Http.Ingest.events key? request with
  | .error response => pure response
  | .ok events => do
    publisher.publishAll handle events
    pure (envelope 202 (countText "accepted" events.length))

def acceptEvents (request : Request) : StateM Service Response := do
  accept handle publisher (← get).settings.ingestKey? request

/-! All requests. -/

def follow (route : Route) (request : Request) : StateM Service Reply := do
  let service ← get
  match errand? service.settings service.now request route with
  | some errand => errand.reply
  | none => pure (.of (← acceptEvents request))

def dropStream (subscription : Live.Subscription) : StateM Service Unit := modify fun service =>
  { service with manager := service.manager.drop subscription }

/-- Leaves the body off, and with it the stream that it would carry. -/
def onlyHead (reply : Reply) : StateM Service Reply := do
  if let some subscription := reply.opened then dropStream subscription
  pure (.of reply.response.withoutBody)

def respond (request : Request) : StateM Service Reply :=
  match Route.ofPath? request.path with
  | none => pure (.of (.empty 404))
  | some route =>
    if request.method ∈ route.methods then do
      let reply ← follow route request
      if request.method = "HEAD" then onlyHead reply else pure reply
    else pure (.of { Response.empty 405 with headers := [("allow", route.allow)] })

def respondAcross (origins : Http.Origins) (request : Request) : StateM Service Reply :=
  if Http.Origins.isPreflight request then
    pure (.of (origins.preflight request ((Route.ofPath? request.path).map Route.allow)))
  else do
    let reply ← respond request
    pure { reply with response := origins.decorate request reply.response }

end Herald.Service
