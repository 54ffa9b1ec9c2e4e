import Herald.Json.Shape
import Herald.Json.Skip

/-!
Records of known fields, read into a draft. A record may also be written as the list of its field
values in order. A repeated field is a mismatch before its value is read, and the missing fields are
looked for in order at the end.
-/

namespace Herald.Json

open Text (ascii)

/-- A field of a record: reading its value gives a change to the draft. -/
structure Slot (α : Type) where
  name : String
  read : Reader (α → α)
  isRequired : Bool

namespace Slot

variable {α β : Type}

def required (name : String) (read : Reader β) (write : β → α → α) : Slot α :=
  ⟨name, (do
    let value ← read
    pure (write value)), true⟩

def optional (name : String) (read : Reader β) (write : β → α → α) : Slot α :=
  { required name read write with isRequired := false }

structure Progress (α : Type) where
  draft : α
  seen : List String

/-- Reads one member; a member that is no field goes to `other`. -/
def step (slots : List (Slot α)) (other : String → Reader (α → α)) (progress : Progress α)
    (name : String) : Reader (Progress α) :=
  match slots.find? (·.name = name) with
  | some slot =>
    if progress.seen.contains name then Reader.refuse (.duplicateField name)
    else Reader.member name do
      let change ← slot.read
      pure ⟨change progress.draft, name :: progress.seen⟩
  | none => Reader.member name do
    let change ← other name
    pure { progress with draft := change progress.draft }

def complete (slots : List (Slot α)) (progress : Progress α) : Reader α :=
  match slots.find? fun slot => slot.isRequired && !progress.seen.contains slot.name with
  | some slot => Reader.refuse (.missingField slot.name)
  | none => pure progress.draft

def members (slots : List (Slot α)) (other : String → Reader (α → α)) (draft : α) : Reader α := do
  let progress ← Reader.foldMembers Quotation.quoted (step slots other) ⟨draft, []⟩
  complete slots progress

def items (expected : String) (index : Nat) (draft : α) : List (Slot α) → Reader α
  | [] => pure draft
  | slot :: slots => do
    if ← Reader.nextItem (index = 0) then
      let change ← Reader.under (.position index) slot.read
      items expected (index + 1) (change draft) slots
    else Reader.refuse (.wrongLength index expected)

def pass : String → Reader (α → α) := fun _ => do
  Skip.value
  pure id

def record (expected elements : String) (slots : List (Slot α)) (draft : α) : Reader α :=
  Shape.byFirst fun octet =>
    if octet = ascii '\x7b' then Reader.inRecord (members slots pass draft)
    else if octet = ascii '[' then Reader.inList (items elements 0 draft slots)
    else Shape.unexpected expected

end Slot

end Herald.Json
