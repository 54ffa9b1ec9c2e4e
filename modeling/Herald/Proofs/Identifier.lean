import Herald.Identifier
import Herald.Proofs.Text.Digits
import Mathlib.Algebra.GroupWithZero.Nat

/-!
The hyphenated form of an identifier is read as that identifier.
-/

namespace Herald.Identifier

open Text (ascii)

theorem beq_iff (left right : Identifier) : (left == right) = true ↔ left = right := by
  obtain ⟨value, hvalue⟩ := left
  obtain ⟨value', hvalue'⟩ := right
  change (value == value') = true ↔ _
  rw [beq_iff_eq, Identifier.mk.injEq]

instance : LawfulBEq Identifier where
  rfl := (beq_iff _ _).mpr rfl
  eq_of_beq hbeq := (beq_iff _ _).mp hbeq

theorem digit?_character {digit : Nat} (hlt : digit < 16) :
    digit? (Text.Digits.character digit) = some digit := by
  rw [digit?, if_pos (Text.Digits.character_lt_of_lt hlt), Text.Digits.hexadecimal?_character hlt]

theorem ofDigits?_text (identifier : Identifier) :
    ofDigits? (Text.Digits.text 16 32 identifier.value) = some identifier := by
  have hread : (Text.Digits.text 16 32 identifier.value).mapM digit? =
      some (Text.Digits.fixed 16 32 identifier.value) :=
    Text.Digits.mapM_map_eq_some fun _ hmem =>
      digit?_character (Text.Digits.lt_of_mem_fixed (by decide) hmem)
  have hvalue : identifier.value % 16 ^ 32 = identifier.value :=
    Nat.mod_eq_of_lt identifier.value_lt
  rw [ofDigits?, if_pos (Text.Digits.length_text ..), hread, Option.map_some,
    Text.Digits.value_fixed, hvalue]
  simp only [ofNat, hvalue]

theorem ungrouped?_cons {lengths : List Nat} (hlengths : lengths ≠ []) (length : Nat)
    (rest : List Char) :
    ungrouped? (length :: lengths) rest =
      match rest.drop length with
      | '-' :: after => (ungrouped? lengths after).map (rest.take length ++ ·)
      | _ => none := by
  cases lengths with
  | nil => contradiction
  | cons second lengths => rfl

theorem ungrouped?_hyphenated {lengths : List Nat} (hlengths : lengths ≠ []) {digits : List Char}
    (hsum : digits.length = lengths.sum) :
    ungrouped? lengths (hyphenated lengths digits) = some digits := by
  induction lengths generalizing digits with
  | nil => contradiction
  | cons length lengths ih =>
      cases lengths with
      | nil =>
          have hlength : digits.length = length := by simpa using hsum
          have htake : digits.take length = digits := List.take_of_length_le (by omega)
          rw [hyphenated, htake, ungrouped?, if_pos hlength]
      | cons second lengths =>
          have hle : length ≤ digits.length := by
            rw [hsum, List.sum_cons]
            omega
          have hfront : (digits.take length).length = length := by
            rw [List.length_take]
            omega
          have hback : (digits.drop length).length = (second :: lengths).sum := by
            rw [List.length_drop, hsum, List.sum_cons (l := second :: lengths)]
            omega
          have hrest := ih (List.cons_ne_nil _ _) hback
          rw [ungrouped?_cons (List.cons_ne_nil _ _), hyphenated, List.drop_left' hfront,
            List.take_left' hfront]
          · simp only [hrest, Option.map_some, List.take_append_drop]
          · exact List.cons_ne_nil _ _

theorem length_hyphenated {lengths : List Nat} (hlengths : lengths ≠ []) {digits : List Char}
    (hsum : digits.length = lengths.sum) :
    (hyphenated lengths digits).length + 1 = lengths.sum + lengths.length := by
  induction lengths generalizing digits with
  | nil => contradiction
  | cons length lengths ih =>
      cases lengths with
      | nil =>
          rw [hyphenated, List.length_take, hsum]
          simp
      | cons second lengths =>
          have hback : (digits.drop length).length = (second :: lengths).sum := by
            rw [List.length_drop, hsum, List.sum_cons (l := second :: lengths)]
            omega
          have hrest := ih (List.cons_ne_nil _ _) hback
          have hle : length ≤ digits.length := by
            rw [hsum, List.sum_cons]
            omega
          rw [hyphenated]
          · simp only [List.length_append, List.length_take, List.length_cons, List.sum_cons] at *
            omega
          · exact List.cons_ne_nil _ _

theorem accepted?_characters (identifier : Identifier) :
    accepted? identifier.characters = some identifier := by
  have hsum : (Text.Digits.text 16 32 identifier.value).length = groups.sum :=
    Text.Digits.length_text ..
  have hungrouped : ungrouped? groups identifier.characters =
      some (Text.Digits.text 16 32 identifier.value) :=
    ungrouped?_hyphenated (List.cons_ne_nil _ _) hsum
  have hgroups : ofGroups? identifier.characters = some identifier := by
    rw [ofGroups?, hungrouped, Option.bind_some, ofDigits?_text]
  have hlength : identifier.characters.length + 1 = groups.sum + groups.length :=
    length_hyphenated (List.cons_ne_nil _ _) hsum
  have hbare : ofDigits? identifier.characters = none := by
    have hne : identifier.characters.length ≠ 32 := by
      intro heq
      rw [heq] at hlength
      exact absurd hlength (by decide)
    rw [ofDigits?, if_neg hne]
  rw [accepted?, hbare, hgroups]
  rfl

theorem read_text (identifier : Identifier) : read identifier.text = .ok identifier := by
  rw [read, text, String.toList_ofList, accepted?_characters]

theorem text_injective : Function.Injective text := by
  intro identifier other htext
  have hread := read_text identifier
  rw [htext, read_text] at hread
  exact (Except.ok.inj hread).symm

instance : Nontrivial Identifier := ⟨.nil, .ofNat 1, by decide⟩

end Herald.Identifier
