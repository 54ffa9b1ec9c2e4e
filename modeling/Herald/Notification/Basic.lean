import Herald.Event.Basic

/-!
Notifications: the rows of a user's history. Every kind of notification has the same fields, of which
those that do not apply to a kind are absent.
-/

namespace Herald

inductive NotificationType
  | reviewApproved
  | reviewRejected
  | commentCreated
  | replyCreated
  deriving DecidableEq, Repr

namespace NotificationType

def all : List NotificationType := [.reviewApproved, .reviewRejected, .commentCreated, .replyCreated]

def name : NotificationType → String
  | .reviewApproved => "REVIEW_APPROVED"
  | .reviewRejected => "REVIEW_REJECTED"
  | .commentCreated => "COMMENT_CREATED"
  | .replyCreated => "REPLY_CREATED"

def ofName? (name : String) : Option NotificationType := all.find? (·.name = name)

end NotificationType

structure NewNotification where
  user : Identifier
  type : NotificationType
  post : Option Identifier := none
  postTitle : Option String := none
  commentContent : Option String := none
  content : Option Identifier := none
  reason : Option String := none
  deriving DecidableEq, Repr

structure Notification where
  id : Identifier
  user : Identifier
  type : NotificationType
  isRead : Bool
  post : Option Identifier
  postTitle : Option String
  commentContent : Option String
  content : Option Identifier
  reason : Option String
  createdAt : Instant
  deriving DecidableEq, Repr

namespace NewNotification

def recorded (new : NewNotification) (id : Identifier) (createdAt : Instant) : Notification where
  id
  user := new.user
  type := new.type
  isRead := false
  post := new.post
  postTitle := new.postTitle
  commentContent := new.commentContent
  content := new.content
  reason := new.reason
  createdAt

def ofEvent? : Event → Option NewNotification
  | .reviewApproved recipient _ => some { user := recipient, type := .reviewApproved }
  | .reviewRejected recipient reason _ =>
    some { user := recipient, type := .reviewRejected, reason := some reason }
  | .commentCreated recipient comment post postTitle content _ =>
    some { user := recipient, type := .commentCreated, post := some post,
           postTitle := some postTitle, commentContent := some content, content := some comment }
  | .replyCreated recipient reply post postTitle content _ =>
    some { user := recipient, type := .replyCreated, post := some post,
           postTitle := some postTitle, commentContent := some content, content := some reply }
  | .postCreated .. | .postDeleted .. | .commentAdded .. | .commentDeleted .. => none

end NewNotification

structure User where
  id : Identifier
  nickname : String
  createdAt : Instant
  updatedAt : Instant
  deriving DecidableEq, Repr

end Herald
