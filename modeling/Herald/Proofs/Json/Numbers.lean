import Herald.Json.Printer
import Herald.Proofs.Json.Scalars
import Mathlib.Data.List.Basic

/-!
Natural numbers that the printer writes are read back if they fit 64 bits and no further digit,
fraction or exponent follows.
-/

namespace Herald.Json

open Text (ascii octets)
open Text.Digits (isDecimal decimal)

/-! Digits. -/

theorem toNat_ascii {character : Char} (hdigit : character.isDigit = true) :
    (ascii character).toNat = character.toNat := by
  have hbounds := Char.isDigit_iff_toNat.mp hdigit
  change character.toNat % 256 = character.toNat
  have hnine : '9'.toNat = 57 := rfl
  omega

theorem isDecimal_ascii {character : Char} (hdigit : character.isDigit = true) :
    isDecimal (ascii character) = true := by
  have hbounds := Char.isDigit_iff_toNat.mp hdigit
  have hzero : '0'.toNat = 48 := rfl
  have hnine : '9'.toNat = 57 := rfl
  have htoNat := toNat_ascii hdigit
  rw [isDecimal, Bool.and_eq_true, decide_eq_true_eq, decide_eq_true_eq, UInt8.le_iff_toNat_le,
    UInt8.le_iff_toNat_le, htoNat]
  change 48 ≤ character.toNat ∧ character.toNat ≤ 57
  omega

theorem isDigit_of_mem {number : Nat} {character : Char}
    (hmem : character ∈ Nat.toDigits 10 number) : character.isDigit = true :=
  Nat.isDigit_of_mem_toDigits (by decide) (by decide) hmem

theorem octets_natural (number : Nat) :
    octets (Printer.natural number) = (Nat.toDigits 10 number).map ascii := by
  rw [Printer.natural, Nat.toString_eq_ofList_toDigits, Text.octets_ofList, Text.octetsOf_of_lt]
  intro character hmem
  have hbounds := Char.isDigit_iff_toNat.mp (isDigit_of_mem hmem)
  have hnine : '9'.toNat = 57 := rfl
  omega

theorem isDecimal_of_mem_natural {number : Nat} {octet : UInt8}
    (hmem : octet ∈ octets (Printer.natural number)) : isDecimal octet = true := by
  rw [octets_natural] at hmem
  obtain ⟨character, hcharacter, rfl⟩ := List.mem_map.mp hmem
  exact isDecimal_ascii (isDigit_of_mem hcharacter)

/-- What digits add to a total. -/
def totalled (total : Nat) (digits : List UInt8) : Nat :=
  digits.foldl (fun total octet => total * 10 + decimal octet) total

theorem totalled_natural (number : Nat) :
    totalled 0 (octets (Printer.natural number)) = number := by
  calc
    totalled 0 (octets (Printer.natural number)) =
        (Nat.toDigits 10 number).foldl
          (fun total character => total * 10 + decimal (ascii character)) 0 := by
      rw [octets_natural, totalled, List.foldl_map]
    _ = (Nat.toDigits 10 number).foldl
          (fun total character => 10 * total + (character.toNat - '0'.toNat)) 0 := by
      apply List.foldl_ext
      intro total character hmem
      rw [decimal, toNat_ascii (isDigit_of_mem hmem), Nat.mul_comm]
      rfl
    _ = number := by
      rw [← Nat.ofDigitChars_eq_foldl, Nat.ofDigitChars_ten_toDigits]

/-- No number but zero begins with a zero. -/
theorem exists_toDigits_eq_cons (number : Nat) :
    ∃ first rest, Nat.toDigits 10 number = first :: rest ∧
      (first = '0' → number = 0 ∧ rest = []) := by
  induction number using Nat.strongRecOn with
  | ind number ih =>
      by_cases hsmall : number < 10
      · refine ⟨number.digitChar, [], Nat.toDigits_of_lt_base hsmall, fun hzero => ⟨?_, rfl⟩⟩
        exact Nat.digitChar_eq_zero.mp hzero
      · obtain ⟨first, rest, hfront, hfirst⟩ := ih (number / 10) (by omega)
        refine ⟨first, rest ++ [(number % 10).digitChar], ?_, fun hzero => ?_⟩
        · rw [Nat.toDigits_of_base_le (by decide) (by omega), hfront, List.cons_append]
        · have := (hfirst hzero).1
          omega

theorem exists_natural_eq_cons (number : Nat) :
    ∃ first rest, octets (Printer.natural number) = first :: rest ∧ isDecimal first = true ∧
      (first = ascii '0' → number = 0 ∧ rest = []) := by
  obtain ⟨first, rest, hdigits, hfirst⟩ := exists_toDigits_eq_cons number
  have hisDigit : first.isDigit = true := isDigit_of_mem (hdigits ▸ List.mem_cons_self)
  refine ⟨ascii first, rest.map ascii, ?_, isDecimal_ascii hisDigit, fun hzero => ?_⟩
  · rw [octets_natural, hdigits, List.map_cons]
  · have htoNat := toNat_ascii hisDigit
    rw [hzero] at htoNat
    obtain ⟨rfl, rfl⟩ := hfirst (Char.toNat_inj.mp htoNat.symm)
    exact ⟨rfl, rfl⟩

theorem ne_of_isDecimal {octet other : UInt8} (hdecimal : isDecimal octet = true)
    (hother : isDecimal other = false) : octet ≠ other := by
  rintro rfl
  rw [hother] at hdecimal
  cases hdecimal

namespace Numeral

theorem le_totalled (total : Nat) (digits : List UInt8) : total ≤ totalled total digits := by
  induction digits generalizing total with
  | nil => exact Nat.le_refl _
  | cons octet digits ih =>
      have := ih (total * 10 + decimal octet)
      rw [totalled, List.foldl_cons]
      rw [totalled] at this
      omega

/-- Digits that stay within 64 bits are all taken. -/
theorem absorb_eq {total : Nat} {digits : List UInt8}
    (hle : totalled total digits ≤ greatestWhole) :
    absorb total digits = (totalled total digits, digits.length) := by
  induction digits generalizing total with
  | nil => rfl
  | cons octet digits ih =>
      have hnext : ¬greatestWhole < total * 10 + decimal octet := by
        have hmono := le_totalled (total * 10 + decimal octet) digits
        have hsame : totalled total (octet :: digits) =
            totalled (total * 10 + decimal octet) digits := rfl
        omega
      rw [absorb]
      dsimp only
      rw [if_neg hnext, ih hle]
      rfl

/-- Nothing of a number follows. -/
def Ends (rest : List UInt8) : Prop :=
  ∀ octet ∈ rest.head?, isDecimal octet = false ∧ octet ≠ ascii '.' ∧ octet ≠ ascii 'e' ∧
    octet ≠ ascii 'E'

theorem afterWhole_of_ends {rest : List UInt8} (hends : Ends rest) (total : Nat) :
    afterWhole false total 0 rest = .done (.whole total) rest := by
  cases rest with
  | nil => rfl
  | cons octet rest =>
      obtain ⟨-, hpoint, hsmall, hlarge⟩ := hends octet rfl
      change (if octet = ascii '.' then _
        else if (octet = ascii 'e' || octet = ascii 'E') = true then _ else _ : Reader Number) _ = _
      rw [if_neg hpoint, if_neg (by simp [hsmall, hlarge])]
      rfl

theorem digits_natural (number : Nat) {rest : List UInt8} (hends : Ends rest) :
    digits (octets (Printer.natural number) ++ rest) =
      .done (octets (Printer.natural number)) rest := by
  have hdecimal : ∀ octet ∈ octets (Printer.natural number), isDecimal octet = true :=
    fun _ => isDecimal_of_mem_natural
  rw [digits, List.takeWhile_append_of_pos hdecimal, List.dropWhile_append_of_pos hdecimal]
  cases rest with
  | nil => rw [List.takeWhile_nil, List.dropWhile_nil, List.append_nil]
  | cons octet rest =>
      have hend : ¬isDecimal octet = true := by
        rw [(hends octet rfl).1]
        exact Bool.false_ne_true
      rw [List.takeWhile_cons_of_neg hend, List.dropWhile_cons_of_neg hend, List.append_nil]

/-- What the printer writes of a number that fits 64 bits is read back. -/
theorem number_natural {number : Nat} (hnumber : number ≤ greatestWhole) {rest : List UInt8}
    (hends : Ends rest) :
    Numeral.number (octets (Printer.natural number) ++ rest) = .done (.whole number) rest := by
  obtain ⟨first, later, hnatural, hdecimal, hfirst⟩ := exists_natural_eq_cons number
  by_cases hzero : first = ascii '0'
  · obtain ⟨rfl, rfl⟩ := hfirst hzero
    rw [hnatural, hzero]
    cases rest with
    | nil => rfl
    | cons octet rest =>
        change (if isDecimal octet = true then _ else afterWhole false 0 0 : Reader Number) _ = _
        rw [(hends octet rfl).1]
        exact afterWhole_of_ends hends 0
  · have hunsigned : Numeral.number (octets (Printer.natural number) ++ rest) =
        (digits >>= fun given =>
          afterWhole false (absorb 0 given).1 (given.length - (absorb 0 given).2))
          (octets (Printer.natural number) ++ rest) := by
      rw [hnatural, List.cons_append]
      change (if first = ascii '-' then _ else _ : Reader Number) _ = _
      rw [if_neg (ne_of_isDecimal hdecimal rfl)]
      change (if first = ascii '0' then _ else if isDecimal first = true then _ else _ :
        Reader Number) _ = _
      rw [if_neg hzero]
      exact congrFun (if_pos hdecimal) _
    have htotal := totalled_natural number
    rw [hunsigned, Reader.bind_done (digits_natural number hends),
      absorb_eq (htotal.symm ▸ hnumber), htotal, Nat.sub_self]
    exact afterWhole_of_ends hends number

end Numeral

/-- A number that fits 64 bits stands where the printer wrote it. -/
theorem Value.read_natural {number : Nat} (hnumber : number ≤ Numeral.greatestWhole)
    {rest : List UInt8} (hends : Numeral.Ends rest) (depth : Nat) :
    Value.read depth (octets (Printer.natural number) ++ rest) =
      .done (.number (.whole number)) rest := by
  obtain ⟨first, later, hnatural, hdecimal, -⟩ := exists_natural_eq_cons number
  have hblank : Reader.isBlank first = false := by
    have hletter (letter : Char) (hletter : isDecimal (ascii letter) = false) :
        decide (first = ascii letter) = false :=
      decide_eq_false (ne_of_isDecimal hdecimal hletter)
    rw [Reader.isBlank, hletter ' ' rfl, hletter '\n' rfl, hletter '\t' rfl, hletter '\r' rfl]
    rfl
  have hinput : (octets (Printer.natural number) ++ rest).dropWhile Reader.isBlank =
      first :: (later ++ rest) := by
    rw [hnatural, List.cons_append, List.dropWhile_cons_of_neg (by simp [hblank])]
  have hstarts : (first = ascii '-' || isDecimal first) = true := by
    rw [hdecimal, Bool.or_true]
  have hread := Numeral.number_natural hnumber hends
  rw [hnatural, List.cons_append] at hread
  rw [Value.read_of_number depth hinput hstarts, Reader.bind_done hread]
  rfl

end Herald.Json
