import Herald.Event.Kind
import Herald.Identifier
import Herald.Instant

/-!
Events: committed changes worth a notification. An event is addressed to one user, or to everyone
who is connected; only events addressed to a user are kept in a history.
-/

namespace Herald

inductive Event
  | reviewApproved (recipient : Identifier) (occurredAt : Instant)
  | reviewRejected (recipient : Identifier) (reason : String) (occurredAt : Instant)
  | postCreated (post : Identifier) (category : Category) (title : String) (occurredAt : Instant)
  | postDeleted (post : Identifier) (category : Category) (occurredAt : Instant)
  | commentCreated (recipient comment post : Identifier) (postTitle content : String)
      (occurredAt : Instant)
  | replyCreated (recipient reply post : Identifier) (postTitle content : String)
      (occurredAt : Instant)
  | commentAdded (post comment : Identifier) (occurredAt : Instant)
  | commentDeleted (post comment : Identifier) (occurredAt : Instant)
  deriving DecidableEq, Repr

inductive Recipient
  | user (user : Identifier)
  | everyone
  deriving DecidableEq, Repr

namespace Event

def kind : Event → Kind
  | .reviewApproved .. => .reviewApproved
  | .reviewRejected .. => .reviewRejected
  | .postCreated .. => .postCreated
  | .postDeleted .. => .postDeleted
  | .commentCreated .. => .commentCreated
  | .replyCreated .. => .replyCreated
  | .commentAdded .. => .commentAdded
  | .commentDeleted .. => .commentDeleted

def recipient : Event → Recipient
  | .reviewApproved recipient .. => .user recipient
  | .reviewRejected recipient .. => .user recipient
  | .commentCreated recipient .. => .user recipient
  | .replyCreated recipient .. => .user recipient
  | .postCreated .. => .everyone
  | .postDeleted .. => .everyone
  | .commentAdded .. => .everyone
  | .commentDeleted .. => .everyone

def recipientId? (event : Event) : Option Identifier :=
  match event.recipient with
  | .user user => some user
  | .everyone => none

theorem recipientId?_eq_some_iff {event : Event} {user : Identifier} :
    event.recipientId? = some user ↔ event.recipient = .user user := by
  rw [recipientId?]
  cases event.recipient with
  | user other => rw [Option.some.injEq, Recipient.user.injEq]
  | everyone => simp only [reduceCtorEq]

theorem recipientId?_eq_none_iff {event : Event} :
    event.recipientId? = none ↔ event.recipient = .everyone := by
  rw [recipientId?]
  cases event.recipient with
  | user other => simp only [reduceCtorEq]
  | everyone => simp only

def isPersisted (event : Event) : Bool :=
  match event.kind with
  | .reviewApproved | .reviewRejected | .commentCreated | .replyCreated => true
  | .postCreated | .postDeleted | .commentAdded | .commentDeleted => false

/-- The comment or reply that caused the event, which its recipient is told of once. -/
def contentId? : Event → Option Identifier
  | .commentCreated _ comment .. => some comment
  | .replyCreated _ reply .. => some reply
  | _ => none

def occurredAt : Event → Instant
  | .reviewApproved _ occurredAt => occurredAt
  | .reviewRejected _ _ occurredAt => occurredAt
  | .postCreated _ _ _ occurredAt => occurredAt
  | .postDeleted _ _ occurredAt => occurredAt
  | .commentCreated _ _ _ _ _ occurredAt => occurredAt
  | .replyCreated _ _ _ _ _ occurredAt => occurredAt
  | .commentAdded _ _ occurredAt => occurredAt
  | .commentDeleted _ _ occurredAt => occurredAt

end Event

end Herald
