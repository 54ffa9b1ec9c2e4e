import Herald.Json.Quotation
import Herald.Proofs.Text.Digits

/-!
Quotations that the printer writes are read back. The machine that reads them passes over one
written character at a time, so the statements below are about any text that follows.
-/

namespace Herald.Json.Quotation

open Text (ascii octets octetsOf)

/-- Octets that stand for themselves in a quotation. -/
def IsPlain (octet : UInt8) : Prop :=
  octet ≠ ascii '"' ∧ octet ≠ ascii '\\' ∧ ¬octet < 0x20

theorem isPlain_of_le {octet : UInt8} (hle : 128 ≤ octet.toNat) : IsPlain octet := by
  refine ⟨?_, ?_, ?_⟩
  · rintro rfl
    exact absurd hle (by decide)
  · rintro rfl
    exact absurd hle (by decide)
  · intro hlt
    have : octet.toNat < 32 := hlt
    omega

theorem contents_go {octet : UInt8} {mode next : Mode} {more : List UInt8}
    (hmove : mode.move octet = .go next more) (gained rest : List UInt8) :
    contents mode gained (octet :: rest) = contents next (more.reverse ++ gained) rest := by
  rw [contents, hmove]

theorem contents_plain {front : List UInt8} (hplain : ∀ octet ∈ front, IsPlain octet)
    (gained rest : List UInt8) :
    contents .plain gained (front ++ rest) = contents .plain (front.reverse ++ gained) rest := by
  induction front generalizing gained with
  | nil => rfl
  | cons octet front ih =>
      obtain ⟨hmark, hslash, hcontrol⟩ := hplain octet List.mem_cons_self
      have hmove : Mode.plain.move octet = .go .plain [octet] := by
        simp only [Mode.move, if_neg hmark, if_neg hslash, if_neg hcontrol]
      rw [List.cons_append, contents_go hmove,
        ih fun other hother => hplain other (List.mem_cons_of_mem _ hother)]
      simp only [List.reverse_cons, List.reverse_nil, List.nil_append, List.append_assoc,
        List.singleton_append]

theorem contents_mark (gained rest : List UInt8) :
    contents .plain gained (ascii '"' :: rest) = .done gained.reverse rest := rfl

theorem contents_escape {octet : UInt8} {more : List UInt8}
    (hmove : escapeMove octet = .go .plain more) (gained rest : List UInt8) :
    contents .plain gained (ascii '\\' :: octet :: rest) =
      contents .plain (more.reverse ++ gained) rest := by
  have hslash : Mode.plain.move (ascii '\\') = .go .escape [] := rfl
  have hescape : Mode.escape.move octet = .go .plain more := hmove
  rw [contents_go hslash, contents_go hescape]
  rfl

theorem contents_unit {unit : Nat} (hunit : unit < 0xD800) (gained rest : List UInt8) :
    contents (.unit none []) gained (octetsOf (Text.Digits.text 16 4 unit) ++ rest) =
      contents .plain ((codeOctets unit).reverse ++ gained) rest := by
  have hread : unitValue? (octetsOf (Text.Digits.text 16 4 unit)) = some unit := by
    have hmod : unit % 16 ^ 4 = unit := Nat.mod_eq_of_lt (by omega)
    rw [unitValue?, Text.Digits.octetsOf_text, Text.Digits.mapM_hexadecimal?_fixed,
      Option.map_some, Text.Digits.value_fixed, hmod]
  have hmove : unitMove none unit = .go .plain (codeOctets unit) := by
    have htrailing : isTrailing unit = false := by
      simp only [isTrailing, Bool.and_eq_false_iff, decide_eq_false_iff_not]
      omega
    have hleading : isLeading unit = false := by
      simp only [isLeading, Bool.and_eq_false_iff, decide_eq_false_iff_not]
      omega
    simp only [unitMove, htrailing, hleading, Bool.false_eq_true, if_false]
  have hlength : (octetsOf (Text.Digits.text 16 4 unit)).length = 4 := by
    rw [Text.Digits.octetsOf_text, List.length_map, Text.Digits.length_fixed]
  revert hread
  match octetsOf (Text.Digits.text 16 4 unit), hlength with
  | [first, second, third, fourth], _ =>
      intro hread
      have hlast : (Mode.unit none [first, second, third]).move fourth =
          .go .plain (codeOctets unit) := by
        simp only [Mode.move, List.length_cons, List.length_nil, Nat.lt_irrefl, if_false,
          List.cons_append, List.nil_append, hread, hmove]
      calc
        contents (.unit none []) gained ([first, second, third, fourth] ++ rest) =
            contents (.unit none [first, second, third]) gained (fourth :: rest) := rfl
        _ = contents .plain ((codeOctets unit).reverse ++ gained) rest := contents_go hlast ..

theorem contents_escaped (character : Char) (gained rest : List UInt8) :
    contents .plain gained (octetsOf (escaped character) ++ rest) =
      contents .plain ((String.utf8EncodeChar character).reverse ++ gained) rest := by
  unfold escaped
  iterate 7
    split
    · subst character
      exact contents_escape rfl gained rest
  split
  · next hcontrol =>
      have hunit : codeOctets character.toNat = String.utf8EncodeChar character := by
        rw [codeOctets, Char.ofNat_toNat]
      rw [← hunit, octetsOf, List.flatMap_append, List.append_assoc]
      exact contents_unit (by omega) gained rest
  · next hmark hslash _ _ _ _ _ hcontrol =>
      have hplain : ∀ octet ∈ String.utf8EncodeChar character, IsPlain octet := by
        intro octet hmem
        by_cases hlt : character.toNat < 128
        · rw [Text.utf8EncodeChar_of_lt hlt, List.mem_singleton] at hmem
          subst hmem
          have hoctet : (ascii character).toNat = character.toNat := by
            change character.toNat % 256 = character.toNat
            omega
          refine ⟨?_, ?_, ?_⟩
          · intro heq
            apply hmark
            rw [← Char.toNat_inj, ← hoctet, heq]
            rfl
          · intro heq
            apply hslash
            rw [← Char.toNat_inj, ← hoctet, heq]
            rfl
          · intro hless
            have : (ascii character).toNat < 32 := hless
            omega
        · exact isPlain_of_le (Text.le_of_mem_utf8EncodeChar (by omega) hmem)
      rw [octetsOf, List.flatMap_singleton]
      exact contents_plain hplain gained rest

theorem contents_flatMap_escaped (characters : List Char) (gained rest : List UInt8) :
    contents .plain gained (octetsOf (characters.flatMap escaped) ++ rest) =
      contents .plain ((octetsOf characters).reverse ++ gained) rest := by
  induction characters generalizing gained with
  | nil => rfl
  | cons character characters ih =>
      have hfront : octetsOf ((character :: characters).flatMap escaped) =
          octetsOf (escaped character) ++ octetsOf (characters.flatMap escaped) := by
        simp only [octetsOf, List.flatMap_cons, List.flatMap_append]
      have hspelled : octetsOf (character :: characters) =
          String.utf8EncodeChar character ++ octetsOf characters := by
        simp only [octetsOf, List.flatMap_cons]
      rw [hfront, List.append_assoc, contents_escaped, ih, hspelled, List.reverse_append,
        List.append_assoc]

/-- Reading what the printer wrote gives the text back, whatever follows the closing mark. -/
theorem quoted_print (text : String) (rest : List UInt8) :
    quoted (octets (print text) ++ rest) = .done text rest := by
  have hprint : octets (print text) ++ rest =
      ascii '"' :: (octetsOf (text.toList.flatMap escaped) ++ (ascii '"' :: rest)) := by
    simp only [print, Text.octets_append, Text.octets_ofList, List.append_assoc]
    rfl
  have hcontents : contents .plain [] (octetsOf (text.toList.flatMap escaped) ++
      (ascii '"' :: rest)) = .done (octets text) rest := by
    rw [contents_flatMap_escaped, contents_mark, List.append_nil, List.reverse_reverse,
      Text.octets_eq_octetsOf]
  calc
    quoted (octets (print text) ++ rest) =
        Quotation.text (octetsOf (text.toList.flatMap escaped) ++ (ascii '"' :: rest)) := by
      rw [hprint]
      rfl
    _ = .done text rest := by
      rw [Quotation.text, hcontents]
      simp only [Text.ofOctets?_octets]

end Herald.Json.Quotation
