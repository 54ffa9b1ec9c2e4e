import Herald.Notification.Text
import Herald.Store.Plan

/-!
A user's notification history as plans on the store: recording a notification once per content,
pages from the newest on, counts, and marking as read.
-/

namespace Herald.History

open Store (Attempt Failure Statement)

def findUser (user : Identifier) : Attempt User := do
  match ← Attempt.query (.findUser user) with
  | found :: _ => pure found
  | [] => throw .notFound

def isRecorded (user content : Identifier) : Attempt Bool := do
  let rows ← Attempt.query (.findContent user content)
  pure !rows.isEmpty

def insert (new : NewNotification) : Attempt Bool :=
  tryCatch (do
      let affected : Nat ← Attempt.query (.insert new)
      pure (decide (affected ≠ 0)))
    fun failure => if failure.kind = .duplicateRecord then pure false else throw failure

/--
Records a notification unless one with the same user and content is there; tells whether this call
added the row. Looking first only saves the insertion, which decides by itself.
-/
def recordIfAbsent (new : NewNotification) : Attempt Bool := do
  if let some content := new.content then
    if ← isRecorded new.user content then return false
  insert new

structure Page where
  items : List Notification
  page : Nat
  size : Nat
  total : Nat
  deriving DecidableEq, Repr

def Page.print (page : Page) : String :=
  Json.Printer.record
    [("items", Json.Printer.list (page.items.map Notification.print)),
      ("page", Json.Printer.natural page.page),
      ("size", Json.Printer.natural page.size),
      ("total", Json.Printer.natural page.total)]

def offsetLimit : Nat := 2 ^ 64

/-- A page by its number from zero; pages past the end are not asked for. -/
def page (user : Identifier) (page size : Nat) : Attempt Page := do
  let total : Nat ← Attempt.query (.countRows user)
  if page * size < offsetLimit ∧ page * size < total then
    let items ← Attempt.query (.pageRows user (page * size) size)
    pure ⟨items, page, size, total⟩
  else pure ⟨[], page, size, total⟩

def emptyPageText : String := "page_size should not be zero"

def page? (user : Identifier) (number size : Nat) : Option (Attempt Page) :=
  if size = 0 then none else some (page user number size)

def countUnread (user : Identifier) : Attempt Nat := Attempt.query (.countUnread user)

def markRead (user id : Identifier) : Attempt Notification := do
  match ← Attempt.query (.findOwned user id) with
  | [] => throw .notFound
  | row :: _ =>
    if row.isRead then pure row
    else
      match ← Attempt.query (.setRead id) with
      | updated :: _ => pure updated
      | [] => throw (.ofFault .recordNotUpdated)

def markAllRead (user : Identifier) : Attempt Nat := Attempt.query (.setAllRead user)

/-! What a user asks for. -/

def defaultPageSize : Nat := 20

def greatestPageSize : Nat := 100

def clampedSize (size : Option Nat) : Nat :=
  min (max (size.getD defaultPageSize) 1) greatestPageSize

def list (user : Identifier) (number size : Option Nat) : Attempt Page :=
  page user (number.getD 0) (clampedSize size)

end Herald.History
