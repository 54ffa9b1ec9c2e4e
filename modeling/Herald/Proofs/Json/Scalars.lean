import Herald.Proofs.Except
import Herald.Proofs.Json.Passing

/-!
Texts and natural numbers, by the values that are read in their place.
-/

namespace Herald.Json

open Text (ascii)
open Text.Digits (isDecimal)

variable {octet : UInt8} {input inside rest : List UInt8} {number : Number} {depth value : Nat}

/-! Texts. -/

theorem Value.quoted_of_read {text : String}
    (hdone : Value.read depth input = .done (.text text) rest) :
    ∃ inside, input.dropWhile Reader.isBlank = ascii '"' :: inside ∧
      Quotation.quoted (ascii '"' :: inside) = .done text rest := by
  have hbegins := Value.begins_of_read hdone
  generalize hinput : input.dropWhile Reader.isBlank = unread at hbegins
  cases hbegins with
  | scalar hscalar => exact hscalar.elim
  | @text inside _ hquoted => exact ⟨inside, rfl, hquoted⟩

/-- A text is read at any depth. -/
theorem Value.read_text {text : String} (hdone : Value.read depth input = .done (.text text) rest)
    (other : Nat) : Value.read other input = .done (.text text) rest := by
  obtain ⟨inside, hinput, hquoted⟩ := Value.quoted_of_read hdone
  rw [Value.read_of_quote other hinput, Reader.bind_done hquoted]
  rfl

theorem Shape.textWith_eq_done_iff {α : Type} {expected : String}
    {check : String → Except Mismatch α} {result : α} (depth : Nat) :
    Shape.textWith expected check input = .done result rest ↔
      ∃ text, Value.read depth input = .done (.text text) rest ∧ check text = .ok result := by
  have hagrees : Agrees (Value.read depth) (Shape.textWith expected check) (Value.checked? check) :=
    ⟨.textWith depth expected check, .textWith depth expected check⟩
  rw [hagrees.eq_done_iff]
  constructor
  · rintro ⟨document, hdocument, hchecked⟩
    cases document with
    | text text => exact ⟨text, hdocument, Except.toOption_eq_some_iff.mp hchecked⟩
    | _ => cases hchecked
  · rintro ⟨text, hdocument, hcheck⟩
    exact ⟨.text text, hdocument, Except.toOption_eq_some_iff.mpr hcheck⟩

/-! Numbers. -/

theorem Value.read_of_number (depth : Nat)
    (hinput : input.dropWhile Reader.isBlank = octet :: inside)
    (hnumber : (octet = ascii '-' || isDecimal octet) = true) :
    Value.read depth input =
      (Numeral.number >>= fun number => pure (Value.number number)) (octet :: inside) := by
  rw [Value.read.eq_def, Reader.bind_done (Reader.peekToken_of_cons hinput)]
  change (if octet = ascii 'n' then _ else if octet = ascii 't' then _
    else if octet = ascii 'f' then _ else if (octet = ascii '-' || isDecimal octet) = true then _
    else _ : Reader Value) _ = _
  rw [if_neg (Numeral.ne_of_starts hnumber rfl), if_neg (Numeral.ne_of_starts hnumber rfl),
    if_neg (Numeral.ne_of_starts hnumber rfl), if_pos hnumber]

theorem Value.number_of_read (hdone : Value.read depth input = .done (.number number) rest) :
    ∃ octet inside, input.dropWhile Reader.isBlank = octet :: inside ∧
      (octet = ascii '-' || isDecimal octet) = true ∧
      Numeral.number (octet :: inside) = .done number rest := by
  cases hinput : input.dropWhile Reader.isBlank with
  | nil =>
      rw [Value.read.eq_def, Reader.bind_done (Reader.peekToken_of_nil hinput)] at hdone
      cases hdone
  | cons octet inside =>
      by_cases hnumber : (octet = ascii '-' || isDecimal octet) = true
      · rw [Value.read_of_number depth hinput hnumber] at hdone
        obtain ⟨found, hfound, hsame⟩ := Reader.map_eq_done hdone
        cases hsame
        exact ⟨octet, inside, rfl, hnumber, hfound⟩
      · rw [Value.read.eq_def, Reader.bind_done (Reader.peekToken_of_cons hinput)] at hdone
        dsimp only at hdone
        split at hdone
        · cases Value.eq_of_word hdone
        split at hdone
        · cases Value.eq_of_word hdone
        split at hdone
        · cases Value.eq_of_word hdone
        split at hdone
        · obtain ⟨_, _, hsame⟩ := Reader.map_eq_done hdone
          cases hsame
        split at hdone
        · cases depth with
          | zero => cases hdone
          | succ below =>
              obtain ⟨_, _, hsame⟩ := Reader.map_eq_done hdone
              cases hsame
        split at hdone
        · cases depth with
          | zero => cases hdone
          | succ below =>
              obtain ⟨_, _, hsame⟩ := Reader.map_eq_done hdone
              cases hsame
        · cases hdone

/-- A natural number is read where a whole number stands that is not negative. -/
theorem Shape.natural_eq_done_iff (depth : Nat) :
    Shape.natural input = .done value rest ↔
      Value.read depth input = .done (.number (.whole value)) rest := by
  constructor
  · intro hdone
    rw [Shape.natural] at hdone
    obtain ⟨octet, inside, hinput, hdone⟩ := Shape.exists_of_byFirst hdone
    split at hdone
    case isTrue hnumber =>
      rw [Value.read_of_number depth hinput hnumber]
      obtain ⟨number, between, hread, hdone⟩ := Reader.bind_eq_done (Reader.placed_eq_done hdone)
      rw [Reader.bind_done hread]
      cases number with
      | real => cases hdone
      | whole found =>
          dsimp only at hdone
          split at hdone
          case isTrue hnonnegative =>
            cases hdone
            rw [Int.toNat_of_nonneg hnonnegative]
            rfl
          case isFalse => cases hdone
    case isFalse => exact absurd hdone (Reader.Fails.unexpected "u64").ne_done
  · intro hdone
    obtain ⟨octet, inside, hinput, hnumber, hread⟩ := Value.number_of_read hdone
    rw [Shape.natural, Shape.byFirst_of_cons hinput, if_pos hnumber, Reader.placed,
      Reader.bind_done hread]
    rfl

theorem Skip.tracks_natural : Tracks Skip.value Shape.natural := by
  intro input value rest hdone
  rw [Shape.natural_eq_done_iff nestingLimit] at hdone
  obtain ⟨octet, inside, hinput, hnumber, hread⟩ := Value.number_of_read hdone
  exact ⟨(), Skip.value_of_scalar hinput (Numeral.ne_of_starts hnumber rfl)
    (Numeral.ne_of_starts hnumber rfl)
    (Skip.number_of_number hnumber hread)⟩

/-! A text or a number in the place of something else is read to its end before it is refused. -/

theorem Reader.placed_congr {α : Type} {reader other : Reader α} {input : List UInt8}
    (halike : reader input = other input) :
    Reader.placed reader input = Reader.placed other input := by
  rw [Reader.placed, Reader.placed, halike]

theorem Shape.unexpected_of_quoted {α : Type} {text : String} (expected : String)
    (hquoted : Quotation.quoted (ascii '"' :: inside) = .done text rest) :
    ∃ fault, (Shape.unexpected expected : Reader α) (ascii '"' :: inside) = .fault fault rest := by
  have hrefused : (Shape.unexpected expected : Reader α) (ascii '"' :: inside) =
      Reader.placed (Quotation.quoted >>= fun text =>
        Reader.refuse (.wrongType (.text text) expected)) (ascii '"' :: inside) := rfl
  rw [hrefused, Reader.placed, Reader.bind_done hquoted]
  exact ⟨_, rfl⟩

theorem Shape.unexpected_of_number {α : Type} (expected : String)
    (hnumber : (octet = ascii '-' || isDecimal octet) = true)
    (hread : Numeral.number (octet :: inside) = .done number rest) :
    ∃ fault, (Shape.unexpected expected : Reader α) (octet :: inside) = .fault fault rest := by
  have hrefused : (Shape.unexpected expected : Reader α) (octet :: inside) =
      Reader.placed (Numeral.number >>= fun number =>
        Reader.refuse (.wrongType (.number number) expected)) (octet :: inside) := by
    refine Reader.placed_congr ?_
    change (if octet = ascii 'n' then _ else if octet = ascii 't' then _
      else if octet = ascii 'f' then _ else if (octet = ascii '-' || isDecimal octet) = true then _
      else _ : Reader α) (octet :: inside) = _
    rw [if_neg (Numeral.ne_of_starts hnumber rfl), if_neg (Numeral.ne_of_starts hnumber rfl),
      if_neg (Numeral.ne_of_starts hnumber rfl)]
    exact congrFun (if_pos hnumber) _
  rw [hrefused, Reader.placed, Reader.bind_done hread]
  exact ⟨_, rfl⟩

end Herald.Json
