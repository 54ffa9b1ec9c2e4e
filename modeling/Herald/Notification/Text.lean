import Herald.Event.Field
import Herald.Json.Record
import Herald.Notification.Basic

/-!
Notifications, users and the small enumerations in JSON text. Reading a notification or a user never
takes over an id or a time: those are assigned by the store.
-/

namespace Herald

open Json (Fault Mismatch Reader Slot)

def Json.readAll {α : Type} (reader : Reader α) (text : String) : Except Fault α :=
  match Reader.whole reader (Text.octets text) with
  | .done value _ => .ok value
  | .fault fault _ => .error fault

def Json.Shape.named {α : Type} (all : List α) (name : α → String) : Reader α :=
  Json.Shape.variant fun text =>
    match all.find? (name · = text) with
    | some value => .ok value
    | none => .error (.unknownVariant text (all.map name))

def Kind.reader : Reader Kind := Json.Shape.named Kind.all Kind.name

def Category.reader : Reader Category := Json.Shape.named Category.all Category.name

def NotificationType.reader : Reader NotificationType :=
  Json.Shape.named NotificationType.all NotificationType.name

def Identifier.reader : Reader Identifier :=
  Json.Shape.textWith "a formatted UUID string" fun text =>
    match Identifier.read text with
    | .ok value => .ok value
    | .error fault => .error (.refused fault.message)

namespace Notification

def members (row : Notification) : List (String × String) :=
  let id (value : Identifier) := Json.Printer.text value.text
  [("id", id row.id),
    ("user_id", id row.user),
    ("notification_type", Json.Printer.text row.type.name),
    ("is_read", Json.Printer.boolean row.isRead),
    ("post_id", Json.Printer.optional id row.post),
    ("post_title", Json.Printer.optional Json.Printer.text row.postTitle),
    ("comment_content", Json.Printer.optional Json.Printer.text row.commentContent),
    ("content_id", Json.Printer.optional id row.content),
    ("reason", Json.Printer.optional Json.Printer.text row.reason),
    ("created_at", Json.Printer.text row.createdAt.text)]

def print (row : Notification) : String := Json.Printer.record row.members

def blank : Notification :=
  ⟨.nil, .nil, .reviewApproved, false, none, none, none, none, none, .epoch⟩

def slots : List (Slot Notification) :=
  [.required "user_id" Identifier.reader fun user row => { row with user },
    .required "notification_type" NotificationType.reader fun type row => { row with type },
    .required "is_read" Json.Shape.boolean fun isRead row => { row with isRead },
    .optional "post_id" (Json.Shape.optional Identifier.reader) fun post row => { row with post },
    .optional "post_title" (Json.Shape.optional Json.Shape.text)
      fun postTitle row => { row with postTitle },
    .optional "comment_content" (Json.Shape.optional Json.Shape.text)
      fun commentContent row => { row with commentContent },
    .optional "content_id" (Json.Shape.optional Identifier.reader)
      fun content row => { row with content },
    .optional "reason" (Json.Shape.optional Json.Shape.text) fun reason row => { row with reason }]

def reader : Reader Notification :=
  Slot.record "struct Model" "struct Model with 8 elements" slots blank

end Notification

namespace User

def print (user : User) : String :=
  Json.Printer.record
    [("id", Json.Printer.text user.id.text),
      ("nickname", Json.Printer.text user.nickname),
      ("created_at", Json.Printer.text user.createdAt.text),
      ("updated_at", Json.Printer.text user.updatedAt.text)]

def reader : Reader User :=
  Slot.record "struct Model" "struct Model with 1 element"
    [.required "nickname" Json.Shape.text fun nickname user => { user with nickname }]
    ⟨.nil, "", .epoch, .epoch⟩

end User

end Herald
