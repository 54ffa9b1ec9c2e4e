import Herald.Store.Plan

/-!
The store in memory: users and notifications in order of insertion. A user has at most one row for
each content, rows belong to known users, and a new row gets the next id and time of the store's
supply. A closed store fails every statement.
-/

namespace Herald.Store

structure Stamp where
  id : Identifier
  createdAt : Instant
  deriving DecidableEq, Repr

structure Tables where
  users : List User
  rows : List Notification
  recorded : Nat
  /-- The id and time of each recorded row, counted from zero. -/
  supply : Nat → Stamp
  isClosed : Bool

namespace Tables

def closedFault : Fault := .connection "closed"

def hasUser (tables : Tables) (user : Identifier) : Bool := tables.users.any (·.id = user)

/-- Whether a row is that of a user about a content; rows without content are about none. -/
def isAbout (user content : Identifier) (row : Notification) : Bool :=
  row.user = user && row.content = some content

def hasContent (tables : Tables) (user content : Identifier) : Bool :=
  tables.rows.any (isAbout user content)

def rowsOf (tables : Tables) (user : Identifier) : List Notification :=
  tables.rows.filter (·.user = user)

/-- Whether a row comes before another in a history: newer, or of the same time with a greater id. -/
def isNewer (left right : Notification) : Bool :=
  right.createdAt.isBefore left.createdAt
    || (!left.createdAt.isBefore right.createdAt && right.id.value ≤ left.id.value)

def history (tables : Tables) (user : Identifier) : List Notification :=
  (tables.rowsOf user).mergeSort isNewer

def isUnread (user : Identifier) (row : Notification) : Bool := row.user = user && !row.isRead

def unreadOf (tables : Tables) (user : Identifier) : Nat :=
  (tables.rows.filter (isUnread user)).length

def marked (row : Notification) : Notification := { row with isRead := true }

def mark (tables : Tables) (chosen : Notification → Bool) : Tables :=
  { tables with rows := tables.rows.map fun row => if chosen row then marked row else row }

def collides (tables : Tables) (new : NewNotification) : Bool :=
  match new.content with
  | some content => tables.hasContent new.user content
  | none => false

def add (tables : Tables) (new : NewNotification) : Tables :=
  let stamp := tables.supply tables.recorded
  { tables with
    rows := tables.rows ++ [new.recorded stamp.id stamp.createdAt]
    recorded := tables.recorded + 1 }

/-- Inserts a row unless it collides; of a row that does not, the user has to be known. -/
def insert (tables : Tables) (new : NewNotification) : Except Fault Nat × Tables :=
  if tables.collides new then (.ok 0, tables)
  else if tables.hasUser new.user then (.ok 1, tables.add new)
  else (.error (.foreignKeyViolation "FOREIGN KEY constraint failed"), tables)

def answerOpen (tables : Tables) : (statement : Statement) → Except Fault statement.Answer × Tables
  | .findUser user => (.ok (tables.users.filter (·.id = user)), tables)
  | .findContent user content => (.ok (tables.rows.filter (isAbout user content)), tables)
  | .insert new => tables.insert new
  | .countRows user => (.ok (tables.rowsOf user).length, tables)
  | .pageRows user offset limit => (.ok (((tables.history user).drop offset).take limit), tables)
  | .countUnread user => (.ok (tables.unreadOf user), tables)
  | .findOwned user id => (.ok (tables.rows.filter fun row => row.user = user && row.id = id), tables)
  | .setRead id =>
    let tables := tables.mark (·.id = id)
    (.ok (tables.rows.filter (·.id = id)), tables)
  | .setAllRead user => (.ok (tables.unreadOf user), tables.mark (isUnread user))

def answer (tables : Tables) (statement : Statement) : Except Fault statement.Answer × Tables :=
  if tables.isClosed then (.error closedFault, tables) else tables.answerOpen statement

end Tables

end Herald.Store
