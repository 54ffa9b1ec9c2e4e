import Herald.Json.Value
import Herald.Notification.Basic

/-!
The document that describes the requests which users make, for tools that read such documents.
Requests from within the service are left out.
-/

namespace Herald.Api

open Json (Value)

namespace Document

def text (value : String) : Value := .text value

def record (members : List (String × Value)) : Value := .record members

def texts (values : List String) : Value := .list (values.map .text)

def optional (name : String) (value : Option Value) : List (String × Value) :=
  match value with
  | some value => [(name, value)]
  | none => []

/-! Schemas. -/

def reference (name : String) : Value := record [("$ref", text ("#/components/schemas/" ++ name))]

def typed (type : String) (isOptional : Bool) : Value :=
  if isOptional then texts [type, "null"] else text type

def whole (isOptional : Bool) : Value :=
  record [("type", typed "integer" isOptional), ("format", text "int64"),
    ("minimum", .number (.whole 0))]

def plainText (isOptional : Bool) : Value := record [("type", typed "string" isOptional)]

def identifier (isOptional : Bool) (description : Option String) : Value :=
  record ([("type", typed "string" isOptional), ("format", text "uuid")]
    ++ optional "description" (description.map text))

def object (description : Option String) (required : List String)
    (properties : List (String × Value)) : Value :=
  record ([("type", text "object")] ++ optional "description" (description.map text)
    ++ [("required", texts required), ("properties", record properties)])

def single (name : String) : Value := object none [name] [(name, whole false)]

def typeSchema : Value :=
  record [("type", text "string"),
    ("description", text
      ("Discriminator column of the single `notifications` table. Only targeted\n"
        ++ "events that are kept in the recipient's history have a value here.")),
    ("enum", texts (NotificationType.all.map NotificationType.name))]

def pageSchema : Value :=
  object (some "One page of a user's notification history, newest first.")
    ["items", "page", "size", "total"]
    [("items", record [("type", text "array"), ("items", reference "notifications.Model")]),
      ("page", whole false), ("size", whole false), ("total", whole false)]

def rowDescription : String :=
  "One row of a user's notification history.\n\n"
    ++ "Every notification kind shares this table; `notification_type` tells them apart\n"
    ++ "and the display fields that don't apply to a kind stay `NULL`.\n"
    ++ "`(user_id, content_id)` is unique, which is what makes recording a comment or\n"
    ++ "reply notification idempotent."

def rowSchema : Value :=
  object (some rowDescription) ["user_id", "notification_type", "is_read"]
    [("comment_content", plainText true),
      ("content_id",
        identifier true (some "The comment or reply that triggered this notification.")),
      ("is_read", record [("type", text "boolean")]),
      ("notification_type", reference "NotificationType"),
      ("post_id", identifier true none),
      ("post_title", plainText true),
      ("reason", plainText true),
      ("user_id", identifier false none)]

def components : Value :=
  record
    [("schemas", record
      [("MarkedRead", single "updated"), ("NotificationType", typeSchema), ("Page", pageSchema),
        ("UnreadCount", single "count"), ("notifications.Model", rowSchema)]),
    ("securitySchemes", record
      [("bearer_auth", record
        [("type", text "http"), ("scheme", text "bearer"), ("bearerFormat", text "JWT")])])]

/-! Requests. -/

structure Reply where
  status : String
  description : String
  content : Option (String × Option Value) := none

def Reply.value (reply : Reply) : Value :=
  record ([("description", text reply.description)]
    ++ optional "content" (reply.content.map fun (media, schema) =>
      record [(media, record (optional "schema" schema))]))

structure Parameter where
  name : String
  place : String
  description : String
  isRequired : Bool
  schema : Value

def Parameter.value (parameter : Parameter) : Value :=
  record [("name", text parameter.name), ("in", text parameter.place),
    ("description", text parameter.description), ("required", .boolean parameter.isRequired),
    ("schema", parameter.schema)]

structure Operation where
  path : String
  method : String
  tag : String
  name : String
  summary : String
  description : Option String := none
  parameters : List Parameter := []
  replies : List Reply
  isSecured : Bool := true

def Operation.value (operation : Operation) : Value :=
  let parameters :=
    if operation.parameters.isEmpty then none
    else some (Value.list (operation.parameters.map Parameter.value))
  let security :=
    if operation.isSecured then some (Value.list [record [("bearer_auth", .list [])]]) else none
  record [(operation.method, record
    ([("tags", texts [operation.tag]), ("summary", text operation.summary)]
      ++ optional "description" (operation.description.map text)
      ++ [("operationId", text operation.name)]
      ++ optional "parameters" parameters
      ++ [("responses", record (operation.replies.map fun reply => (reply.status, reply.value)))]
      ++ optional "security" security))]

def found (description schema : String) : Reply :=
  ⟨"200", description, some ("application/json", some (reference schema))⟩

def unauthorized : Reply := ⟨"401", "Unauthorized", none⟩

def pageParameter (name description : String) : Parameter :=
  ⟨name, "query", description, false, whole true⟩

def operations : List Operation :=
  [{ path := "/health"
     method := "get"
     tag := "health_check_controller"
     name := "health_check"
     summary := "GET liveness of this instance's HTTP server"
     replies :=
      [⟨"200", "API router is up and responding to requests",
          some ("text/plain", some (plainText false))⟩,
        ⟨"500", "Internal Server Error", none⟩]
     isSecured := false },
    { path := "/notifications"
      method := "get"
      tag := "notification_controller"
      name := "index"
      summary := "GET the authenticated user's notifications, newest first"
      parameters :=
        [pageParameter "page" "Zero based page number",
          pageParameter "size" "Page size, 1 to 100 (default 20)"]
      replies :=
        [found "Successfully retrieved a page of notifications" "Page", unauthorized,
          ⟨"405", "Method not allowed", none⟩] },
    { path := "/notifications/read-all"
      method := "patch"
      tag := "notification_controller"
      name := "mark_all_read"
      summary := "PATCH mark every unread notification of the authenticated user as read"
      replies :=
        [found "Successfully marked all notifications as read" "MarkedRead", unauthorized] },
    { path := "/notifications/stream"
      method := "get"
      tag := "sse_handler"
      name := "sse_handler"
      summary := "GET open the authenticated user's notification stream"
      description := some
        ("Opening a stream replaces any stream the same user already has open on\n"
          ++ "this instance; the older one receives `session-expired` and is closed.")
      replies :=
        [⟨"200", "Event stream of connected, heartbeat, notification and session-expired events",
            some ("text/event-stream", none)⟩,
          unauthorized, ⟨"500", "The stream could not be registered", none⟩] },
    { path := "/notifications/unread-count"
      method := "get"
      tag := "notification_controller"
      name := "unread_count"
      summary := "GET how many of the authenticated user's notifications are unread"
      replies := [found "Successfully counted unread notifications" "UnreadCount", unauthorized] },
    { path := "/notifications/\x7bid\x7d/read"
      method := "patch"
      tag := "notification_controller"
      name := "mark_read"
      summary := "PATCH mark one of the authenticated user's notifications as read"
      parameters :=
        [⟨"id", "path", "Id of the notification to mark as read", true, identifier false none⟩]
      replies :=
        [found "Successfully marked the notification as read" "notifications.Model", unauthorized,
          ⟨"404", "Notification not found", none⟩] }]

end Document

open Document in
def document : Value :=
  record
    [("openapi", text "3.1.0"),
      ("info", record
        [("title", text "Blind Notifications API"), ("description", text ""),
          ("license", record [("name", text "")]), ("version", text "1.0.0-beta1")]),
      ("paths", record (operations.map fun operation => (operation.path, operation.value))),
      ("components", components),
      ("tags", .list
        [record [("name", text "blind_notify"),
          ("description", text "Blind real-time notifications API")]])]

end Herald.Api
