import Herald.Proofs.Store.Ownership
import Mathlib.Data.List.Lex
import Mathlib.Data.Prod.Lex

/-!
The order of a history: newer rows first, and of rows with the same time the one with the greater id
first. As ids are distinct, no two rows of a store stand at the same place.
-/

namespace Herald

namespace Instant

/-- The fields of an instant in the order in which they are compared. -/
def place (instant : Instant) : Int ×ₗ List Nat :=
  toLex (instant.year,
    [instant.month, instant.day, instant.hour, instant.minute, instant.second, instant.nanosecond])

theorem isBefore_iff {left right : Instant} :
    left.isBefore right = true ↔ left.place < right.place := by
  rw [isBefore, place, place, Prod.Lex.toLex_lt_toLex]
  split
  case isTrue hyear => simp [hyear]
  case isFalse hyear =>
    have hsame : left.year = right.year := not_not.mp hyear
    simp [hsame]

theorem place_injective : Function.Injective place := by
  intro left right hplace
  obtain ⟨⟨year, month, day, hour, minute, second, nanosecond⟩, hleft⟩ := left
  obtain ⟨⟨_, _, _, _, _, _, _⟩, hright⟩ := right
  cases hplace
  rfl

end Instant

namespace Store.Tables

variable {tables : Tables} {user : Identifier} {first second : Notification}

/-- Whether a row stands before another one in a history. -/
def Precedes (first second : Notification) : Prop :=
  second.createdAt.isBefore first.createdAt = true ∨
    first.createdAt = second.createdAt ∧ second.id.value < first.id.value

/-- Where a row stands, counted from the oldest one. -/
def place (row : Notification) : (Int ×ₗ List Nat) ×ₗ Nat :=
  toLex (row.createdAt.place, row.id.value)

theorem precedes_iff : Precedes first second ↔ place second < place first := by
  rw [Precedes, place, place, Prod.Lex.toLex_lt_toLex, Instant.isBefore_iff,
    ← Instant.place_injective.eq_iff, eq_comm]

theorem isNewer_iff : isNewer first second = true ↔ place second ≤ place first := by
  rw [isNewer, place, place, Prod.Lex.toLex_le_toLex, Bool.or_eq_true, Bool.and_eq_true,
    Bool.not_eq_true', ← Bool.not_eq_true, Instant.isBefore_iff, Instant.isBefore_iff, not_lt,
    decide_eq_true_eq]
  constructor
  · rintro (hlater | ⟨hnotEarlier, hid⟩)
    · exact .inl hlater
    · exact hnotEarlier.lt_or_eq.imp_right fun hsame => ⟨hsame, hid⟩
  · rintro (hlater | ⟨hsame, hid⟩)
    · exact .inl hlater
    · exact .inr ⟨hsame.le, hid⟩

theorem history_perm (tables : Tables) (user : Identifier) :
    (tables.history user).Perm (tables.rowsOf user) :=
  List.mergeSort_perm _ _

theorem pairwise_history (tables : Tables) (user : Identifier) :
    (tables.history user).Pairwise fun first second => place second ≤ place first := by
  have hsorted : (tables.history user).Pairwise fun first second => isNewer first second = true := by
    apply List.pairwise_mergeSort
    · intro first second third hfirst hsecond
      rw [isNewer_iff] at hfirst hsecond ⊢
      exact hsecond.trans hfirst
    · intro first second
      rw [Bool.or_eq_true, isNewer_iff, isNewer_iff]
      exact le_total _ _
  exact hsorted.imp isNewer_iff.mp

theorem id_eq_of_place_eq (hplace : place first = place second) : first.id = second.id := by
  have hvalue : first.id.value = second.id.value := congrArg (fun place => (ofLex place).2) hplace
  cases hfirst : first.id
  cases hsecond : second.id
  simpa [hfirst, hsecond] using hvalue

/-- The order is strict, as rows at one place would have the same id. -/
theorem Keyed.pairwise_precedes (hkeyed : tables.Keyed) (user : Identifier) :
    (tables.history user).Pairwise Precedes := by
  have hrows : (tables.rowsOf user).Pairwise fun first second => first.id ≠ second.id :=
    (List.pairwise_map.mp hkeyed).filter _
  have hids : (tables.history user).Pairwise fun first second => first.id ≠ second.id :=
    (tables.history_perm user).symm.pairwise hrows fun hdiffer => hdiffer.symm
  apply ((tables.pairwise_history user).and hids).imp
  rintro first second ⟨hplace, hdiffer⟩
  apply precedes_iff.mpr
  exact lt_of_le_of_ne hplace fun hsame => hdiffer (id_eq_of_place_eq hsame).symm

end Store.Tables

end Herald
