import Herald.Proofs.Store.Tables

/-!
Stores that are alike: they have the same rows, apart from the ids and times that rows got when they
were recorded. What the store is asked before a row is inserted, and whether the row is inserted, does
not depend on ids and times.
-/

namespace Herald.Store.Tables

variable {left right : Tables}

/-- A row apart from its id and time. -/
def unstamped (row : Notification) : Notification := { row with id := .nil, createdAt := .epoch }

structure Alike (left right : Tables) : Prop where
  users : left.users = right.users
  rows : left.rows.map unstamped = right.rows.map unstamped
  isClosed : left.isClosed = right.isClosed

/-- The store with other ids and times for the rows to come. -/
def supplied (tables : Tables) (supply : Nat → Stamp) : Tables := { tables with supply }

theorem alike_supplied (tables : Tables) (supply : Nat → Stamp) :
    tables.Alike (tables.supplied supply) :=
  ⟨rfl, rfl, rfl⟩

theorem Alike.hasUser_eq (halike : left.Alike right) (user : Identifier) :
    left.hasUser user = right.hasUser user := by
  simp [hasUser, halike.users]

theorem any_isAbout_unstamped (rows : List Notification) (user content : Identifier) :
    (rows.map unstamped).any (isAbout user content) = rows.any (isAbout user content) := by
  rw [List.any_map]
  rfl

theorem Alike.hasContent_eq (halike : left.Alike right) (user content : Identifier) :
    left.hasContent user content = right.hasContent user content := by
  rw [hasContent, ← any_isAbout_unstamped, halike.rows, any_isAbout_unstamped, hasContent]

theorem Alike.collides_eq (halike : left.Alike right) (new : NewNotification) :
    left.collides new = right.collides new := by
  rw [collides, collides]
  cases new.content with
  | none => rfl
  | some content => exact halike.hasContent_eq new.user content

theorem Alike.add (halike : left.Alike right) (new : NewNotification) :
    (left.add new).Alike (right.add new) where
  users := halike.users
  rows := by
    rw [rows_add, rows_add, List.map_append, List.map_append, halike.rows]
    rfl
  isClosed := halike.isClosed

/-- Inserting a row gives the same on stores that are alike, and leaves them so. -/
theorem Alike.insert (halike : left.Alike right) (new : NewNotification) :
    (left.insert new).1 = (right.insert new).1 ∧
      (left.insert new).2.Alike (right.insert new).2 := by
  rw [Tables.insert, Tables.insert, halike.collides_eq, halike.hasUser_eq]
  split
  case isTrue => exact ⟨rfl, halike⟩
  case isFalse =>
    split
    case isTrue => exact ⟨rfl, halike.add new⟩
    case isFalse => exact ⟨rfl, halike⟩

end Herald.Store.Tables
