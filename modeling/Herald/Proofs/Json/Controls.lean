import Herald.Event.Wire
import Herald.Proofs.Text.Digits

/-!
Printed JSON has no control characters: the printer adds none of its own, and quotations escape
theirs. It is therefore a single line wherever lines end at one of these.
-/

namespace Herald

namespace Json

def isControl (character : Char) : Bool := character.toNat < 0x20

/-- Whether a text has no control characters. -/
def Clean (text : String) : Prop := ∀ character ∈ text.toList, isControl character = false

instance (text : String) : Decidable (Clean text) :=
  List.decidableBAll (fun character => isControl character = false) text.toList

theorem Clean.append {left right : String} (hleft : Clean left) (hright : Clean right) :
    Clean (left ++ right) := by
  intro character hmem
  rw [String.toList_append, List.mem_append] at hmem
  rcases hmem with hmem | hmem
  · exact hleft character hmem
  · exact hright character hmem

theorem isControl_digit {digit : Nat} (hlt : digit < 16) :
    isControl (Text.Digits.character digit) = false := by
  revert digit
  decide

theorem isControl_of_all {characters : List Char}
    (hall : (characters.all fun character => !isControl character) = true) :
    ∀ character ∈ characters, isControl character = false := by
  intro character hmem
  have hnot := List.all_eq_true.mp hall character hmem
  rwa [Bool.not_eq_true'] at hnot

theorem Quotation.isControl_of_mem_escaped (character : Char) :
    ∀ other ∈ escaped character, isControl other = false := by
  unfold escaped
  iterate 7
    split
    · exact isControl_of_all (by decide)
  split
  · have hescape : ∀ other ∈ ['\\', 'u'], isControl other = false :=
      isControl_of_all (by decide)
    intro other hmem
    rcases List.mem_append.mp hmem with hunit | hdigits
    · exact hescape other hunit
    · obtain ⟨digit, hdigit, rfl⟩ := List.mem_map.mp hdigits
      exact isControl_digit (Text.Digits.lt_of_mem_fixed (by decide) hdigit)
  · next hcontrol =>
      intro other hmem
      rw [List.mem_singleton.mp hmem]
      exact decide_eq_false hcontrol

namespace Printer

theorem clean_text (value : String) : Clean (text value) := by
  have hinside : Clean (String.ofList (value.toList.flatMap Quotation.escaped)) := by
    intro character hmem
    rw [String.toList_ofList, List.mem_flatMap] at hmem
    obtain ⟨source, _, hmem⟩ := hmem
    exact Quotation.isControl_of_mem_escaped source character hmem
  have hmark : Clean "\"" := by decide
  exact (hmark.append hinside).append hmark

theorem clean_separated {items : List String} (hitems : ∀ item ∈ items, Clean item) :
    Clean (separated items) := by
  induction items with
  | nil => exact fun _ hmem => absurd hmem List.not_mem_nil
  | cons item rest ih =>
      have hrest := ih fun other hother => hitems other (List.mem_cons_of_mem _ hother)
      have hitem := hitems item List.mem_cons_self
      cases rest with
      | nil => exact hitem
      | cons next others =>
          have hcomma : Clean "," := by decide
          exact (hitem.append hcomma).append hrest

theorem clean_record {members : List (String × String)}
    (hmembers : ∀ member ∈ members, Clean member.2) : Clean (record members) := by
  have hopening : Clean "\x7b" := by decide
  have hclosing : Clean "\x7d" := by decide
  have hcolon : Clean ":" := by decide
  refine (hopening.append (clean_separated ?_)).append hclosing
  intro item hitem
  obtain ⟨member, hmember, rfl⟩ := List.mem_map.mp hitem
  exact ((clean_text member.1).append hcolon).append (hmembers member hmember)

end Printer

end Json

open Json (Clean)

theorem FieldValue.clean_print (value : FieldValue) : Clean value.print := by
  cases value with
  | nobody => exact (by decide : Clean "null")
  | id value => exact Json.Printer.clean_text _
  | category value => exact Json.Printer.clean_text _
  | text value => exact Json.Printer.clean_text _
  | instant value => exact Json.Printer.clean_text _

theorem Event.clean_encode (event : Event) : Clean event.encode := by
  apply Json.Printer.clean_record
  intro member hmember
  rcases List.mem_cons.mp hmember with rfl | hfield
  · exact Json.Printer.clean_text _
  · obtain ⟨value, _, hvalue⟩ := List.mem_map.mp (List.of_mem_zip hfield).2
    exact hvalue ▸ value.clean_print

end Herald
