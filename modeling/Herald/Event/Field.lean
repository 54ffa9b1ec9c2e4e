import Herald.Event.Basic
import Herald.Json.Document
import Herald.Json.Printer

/-!
The fields of each kind of event: their names in order, the types of their values, and the events
that lists of values make up.
-/

namespace Herald

open Json (Found Mismatch Value)

inductive FieldType
  | id
  /-- The place of a recipient in an event for everyone; it is null or absent. -/
  | nobody
  | category
  | text
  | instant
  deriving DecidableEq, Repr

inductive FieldValue
  | id (value : Identifier)
  | nobody
  | category (value : Category)
  | text (value : String)
  | instant (value : Instant)
  deriving DecidableEq, Repr

structure Field where
  name : String
  type : FieldType
  deriving DecidableEq, Repr

namespace FieldValue

def type : FieldValue → FieldType
  | .id _ => .id
  | .nobody => .nobody
  | .category _ => .category
  | .text _ => .text
  | .instant _ => .instant

def print : FieldValue → String
  | .id value => Json.Printer.text value.text
  | .nobody => "null"
  | .category value => Json.Printer.text value.name
  | .text value => Json.Printer.text value
  | .instant value => Json.Printer.text value.text

end FieldValue

namespace FieldType

def readId : Value → Except Mismatch Identifier
  | .text content =>
    match Identifier.read content with
    | .ok value => .ok value
    | .error fault => .error (.refused fault.message)
  | value => .error (.wrongType value.found "a formatted UUID string")

def readText : Value → Except Mismatch String
  | .text content => .ok content
  | value => .error (.wrongType value.found "a string")

def readInstant : Value → Except Mismatch Instant
  | .text content =>
    match Instant.read content with
    | .ok value => .ok value
    | .error fault => .error (.refused fault.message)
  | value => .error (.wrongType value.found "an RFC 3339 formatted date and time string")

def readCategoryName (name : String) : Except Mismatch Category :=
  match Category.ofName? name with
  | some value => .ok value
  | none => .error (.unknownVariant name (Category.all.map Category.name))

/--
A category is its name, or a record whose one member has that name and a void value: null or a
record without members.
-/
def readCategory : Value → Except Mismatch Category
  | .text name => readCategoryName name
  | .record [(name, value)] => do
    let named ← readCategoryName name
    match value with
    | .null => .ok named
    | .record [] => .ok named
    | value => .error (.wrongType value.found "unit")
  | .record _ => .error (.wrongValue .record "map with a single key")
  | value => .error (.wrongType value.found "string or map")

def readNobody : Value → Except Mismatch Unit
  | .null => .ok ()
  | value => do
    let _ ← readId value
    .error (.refused "broadcast events carry no recipient")

def read : FieldType → Value → Except Mismatch FieldValue
  | .id, value => (readId value).map .id
  | .nobody, value => (readNobody value).map fun _ => .nobody
  | .category, value => (readCategory value).map .category
  | .text, value => (readText value).map .text
  | .instant, value => (readInstant value).map .instant

def absent? : FieldType → Option FieldValue
  | .nobody => some .nobody
  | _ => none

end FieldType

def Kind.fields : Kind → List Field
  | .reviewApproved => [⟨"recipient", .id⟩, ⟨"occurred_at", .instant⟩]
  | .reviewRejected => [⟨"recipient", .id⟩, ⟨"reason", .text⟩, ⟨"occurred_at", .instant⟩]
  | .postCreated =>
    [⟨"recipient", .nobody⟩, ⟨"post_id", .id⟩, ⟨"category", .category⟩, ⟨"title", .text⟩,
      ⟨"occurred_at", .instant⟩]
  | .postDeleted =>
    [⟨"recipient", .nobody⟩, ⟨"post_id", .id⟩, ⟨"category", .category⟩, ⟨"occurred_at", .instant⟩]
  | .commentCreated =>
    [⟨"recipient", .id⟩, ⟨"comment_id", .id⟩, ⟨"post_id", .id⟩, ⟨"post_title", .text⟩,
      ⟨"content", .text⟩, ⟨"occurred_at", .instant⟩]
  | .replyCreated =>
    [⟨"recipient", .id⟩, ⟨"reply_id", .id⟩, ⟨"post_id", .id⟩, ⟨"post_title", .text⟩,
      ⟨"content", .text⟩, ⟨"occurred_at", .instant⟩]
  | .commentAdded =>
    [⟨"recipient", .nobody⟩, ⟨"post_id", .id⟩, ⟨"comment_id", .id⟩, ⟨"occurred_at", .instant⟩]
  | .commentDeleted =>
    [⟨"recipient", .nobody⟩, ⟨"post_id", .id⟩, ⟨"comment_id", .id⟩, ⟨"occurred_at", .instant⟩]

def Kind.title : Kind → String
  | .reviewApproved => "ReviewApproved"
  | .reviewRejected => "ReviewRejected"
  | .postCreated => "PostCreated"
  | .postDeleted => "PostDeleted"
  | .commentCreated => "CommentCreated"
  | .replyCreated => "ReplyCreated"
  | .commentAdded => "CommentAdded"
  | .commentDeleted => "CommentDeleted"

namespace Event

def values : Event → List FieldValue
  | .reviewApproved recipient occurredAt => [.id recipient, .instant occurredAt]
  | .reviewRejected recipient reason occurredAt => [.id recipient, .text reason, .instant occurredAt]
  | .postCreated post category title occurredAt =>
    [.nobody, .id post, .category category, .text title, .instant occurredAt]
  | .postDeleted post category occurredAt =>
    [.nobody, .id post, .category category, .instant occurredAt]
  | .commentCreated recipient comment post postTitle content occurredAt =>
    [.id recipient, .id comment, .id post, .text postTitle, .text content, .instant occurredAt]
  | .replyCreated recipient reply post postTitle content occurredAt =>
    [.id recipient, .id reply, .id post, .text postTitle, .text content, .instant occurredAt]
  | .commentAdded post comment occurredAt => [.nobody, .id post, .id comment, .instant occurredAt]
  | .commentDeleted post comment occurredAt => [.nobody, .id post, .id comment, .instant occurredAt]

/-- The event of a kind with the given field values, if they have the types of that kind. -/
def ofValues? : Kind → List FieldValue → Option Event
  | .reviewApproved, [.id recipient, .instant occurredAt] => some (.reviewApproved recipient occurredAt)
  | .reviewRejected, [.id recipient, .text reason, .instant occurredAt] =>
    some (.reviewRejected recipient reason occurredAt)
  | .postCreated, [.nobody, .id post, .category category, .text title, .instant occurredAt] =>
    some (.postCreated post category title occurredAt)
  | .postDeleted, [.nobody, .id post, .category category, .instant occurredAt] =>
    some (.postDeleted post category occurredAt)
  | .commentCreated,
    [.id recipient, .id comment, .id post, .text postTitle, .text content, .instant occurredAt] =>
    some (.commentCreated recipient comment post postTitle content occurredAt)
  | .replyCreated,
    [.id recipient, .id reply, .id post, .text postTitle, .text content, .instant occurredAt] =>
    some (.replyCreated recipient reply post postTitle content occurredAt)
  | .commentAdded, [.nobody, .id post, .id comment, .instant occurredAt] =>
    some (.commentAdded post comment occurredAt)
  | .commentDeleted, [.nobody, .id post, .id comment, .instant occurredAt] =>
    some (.commentDeleted post comment occurredAt)
  | _, _ => none

theorem ofValues?_values (event : Event) : ofValues? event.kind event.values = some event := by
  cases event <;> rfl

end Event

end Herald
