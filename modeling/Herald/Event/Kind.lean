/-!
The kinds of events and the categories of posts, with the names that stand for them in text.
-/

namespace Herald

inductive Kind
  | reviewApproved
  | reviewRejected
  | postCreated
  | postDeleted
  | commentCreated
  | replyCreated
  | commentAdded
  | commentDeleted
  deriving DecidableEq, Repr

namespace Kind

def all : List Kind :=
  [.reviewApproved, .reviewRejected, .postCreated, .postDeleted, .commentCreated, .replyCreated,
    .commentAdded, .commentDeleted]

def name : Kind → String
  | .reviewApproved => "REVIEW_APPROVED"
  | .reviewRejected => "REVIEW_REJECTED"
  | .postCreated => "POST_CREATED"
  | .postDeleted => "POST_DELETED"
  | .commentCreated => "COMMENT_CREATED"
  | .replyCreated => "REPLY_CREATED"
  | .commentAdded => "COMMENT_ADDED"
  | .commentDeleted => "COMMENT_DELETED"

def ofName? (name : String) : Option Kind := all.find? (·.name = name)

theorem ofName?_name (kind : Kind) : ofName? kind.name = some kind := by cases kind <;> decide

end Kind

inductive Category
  | freeTalk
  | selfIntro
  | meetup
  | gentlemen
  | ladies
  deriving DecidableEq, Repr

namespace Category

def all : List Category := [.freeTalk, .selfIntro, .meetup, .gentlemen, .ladies]

def name : Category → String
  | .freeTalk => "FREE_TALK"
  | .selfIntro => "SELF_INTRO"
  | .meetup => "MEETUP"
  | .gentlemen => "GENTLEMEN"
  | .ladies => "LADIES"

def ofName? (name : String) : Option Category := all.find? (·.name = name)

theorem ofName?_name (category : Category) : ofName? category.name = some category := by
  cases category <;> decide

end Category

end Herald
