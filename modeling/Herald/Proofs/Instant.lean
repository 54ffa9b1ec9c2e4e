import Herald.Instant
import Herald.Proofs.Text.Digits
import Mathlib.Tactic.IntervalCases

/-!
The text of an instant is read as that instant: years of any width and either sign, the second that
is put in at the end of a minute, and fractions of every length.
-/

namespace Herald

theorem Civil.daysInMonth_le (year : Int) (month : Nat) : daysInMonth year month ≤ 31 := by
  unfold daysInMonth
  split_ifs <;> decide

namespace Instant

open Text.Digits (character)

namespace Scan

variable {α β : Type}

theorem run_bind_ok {scan : Scan α} {next : α → Scan β} {input rest : List Char} {value : α}
    (hscan : scan.run input = .ok (value, rest)) :
    (scan >>= next).run input = (next value).run rest := by
  rw [StateT.run_bind, hscan]
  rfl

/-! Digits and numbers. -/

theorem isDigit_character {digit : Nat} (hlt : digit < 10) : isDigit (character digit) = true := by
  revert digit
  decide

theorem digit_character {digit : Nat} (hlt : digit < 10) : Scan.digit (character digit) = digit := by
  revert digit
  decide

theorem le_foldl (digits : List Nat) (total : Nat) :
    total ≤ digits.foldl (fun total digit => total * 10 + digit) total := by
  induction digits generalizing total with
  | nil => exact Nat.le_refl _
  | cons digit digits ih =>
      have := ih (total * 10 + digit)
      rw [List.foldl_cons]
      omega

theorem more_digits {digits : List Nat} (hdigits : ∀ digit ∈ digits, digit < 10)
    {limit : Option Nat} (hlimit : ∀ most, limit = some most → digits.length ≤ most) (total : Nat)
    (hbound : digits.foldl (fun total digit => total * 10 + digit) total ≤ greatestTotal)
    (rest : List Char) :
    more limit total (digits.map character ++ rest) =
      more (limit.map (· - digits.length))
        (digits.foldl (fun total digit => total * 10 + digit) total) rest := by
  induction digits generalizing limit total with
  | nil =>
      cases limit <;> rfl
  | cons digit digits ih =>
      have hdigit := hdigits digit List.mem_cons_self
      have hlast := le_foldl digits (total * 10 + digit)
      have hopen : limit ≠ some 0 := by
        intro heq
        have := hlimit 0 heq
        simp at this
      have hfits : ¬greatestTotal < total * 10 + digit := by
        rw [List.foldl_cons] at hbound
        omega
      have hnext : ∀ most, limit.map (· - 1) = some most → digits.length ≤ most := by
        intro most hmost
        obtain ⟨before, hbefore, rfl⟩ := Option.map_eq_some_iff.mp hmost
        have := hlimit before hbefore
        rw [List.length_cons] at this
        omega
      have hmap : (limit.map (· - 1)).map (· - digits.length) =
          limit.map (· - (digit :: digits).length) := by
        rw [Option.map_map]
        congr 1
        funext most
        simp only [Function.comp, List.length_cons]
        omega
      rw [List.map_cons, List.cons_append, more, if_neg hopen, if_pos (isDigit_character hdigit),
        digit_character hdigit, if_neg hfits,
        ih (fun other hother => hdigits other (List.mem_cons_of_mem _ hother)) hnext _ hbound, hmap,
        List.foldl_cons]

theorem more_full (total : Nat) (rest : List Char) :
    more (some 0) total rest = .ok (total, rest) := by
  cases rest <;> rfl

theorem more_stop {next : Char} (hnext : isDigit next = false) (limit : Option Nat) (total : Nat)
    (rest : List Char) : more limit total (next :: rest) = .ok (total, next :: rest) := by
  rw [more, hnext]
  split <;> rfl

theorem exists_text_cons {width : Nat} (hwidth : 0 < width) (value : Nat) :
    ∃ first digits, first < 10 ∧
      Text.Digits.text 10 width value = character first :: digits := by
  have hlength := Text.Digits.length_fixed 10 width value
  cases hfixed : Text.Digits.fixed 10 width value with
  | nil =>
      rw [hfixed, List.length_nil] at hlength
      omega
  | cons first digits =>
      refine ⟨first, digits.map character, ?_, ?_⟩
      · have hmem : first ∈ Text.Digits.fixed 10 width value := by
          rw [hfixed]
          exact List.mem_cons_self
        exact Text.Digits.lt_of_mem_fixed (by decide) hmem
      · rw [Text.Digits.text, hfixed, List.map_cons]

/-- A number of a fixed width is read to its end, as far as the limit lets it. -/
theorem number_text {width value : Nat} (hwidth : 0 < width) (hlt : value < 10 ^ width)
    (hbound : value ≤ greatestTotal) {limit : Option Nat}
    (hlimit : ∀ most, limit = some most → width ≤ most) (rest : List Char) :
    (number limit).run (Text.Digits.text 10 width value ++ rest) =
      more (limit.map (· - width)) value rest := by
  have hvalue : (Text.Digits.fixed 10 width value).foldl (fun total digit => total * 10 + digit) 0 =
      value := by
    change Text.Digits.value 10 _ = value
    rw [Text.Digits.value_fixed, Nat.mod_eq_of_lt hlt]
  have hstart : (number limit).run (Text.Digits.text 10 width value ++ rest) =
      more limit 0 (Text.Digits.text 10 width value ++ rest) := by
    obtain ⟨first, digits, hfirst, htext⟩ := exists_text_cons hwidth value
    rw [htext]
    change (if isDigit (character first) then more limit 0 _ else .error .invalid) = _
    rw [if_pos (isDigit_character hfirst)]
  rw [hstart, Text.Digits.text, more_digits, Text.Digits.length_fixed, hvalue]
  · exact fun _ hmem => Text.Digits.lt_of_mem_fixed (by decide) hmem
  · rwa [Text.Digits.length_fixed]
  · rwa [hvalue]

theorem number_limited {width value : Nat} (hwidth : 0 < width) (hlt : value < 10 ^ width)
    (hbound : value ≤ greatestTotal) (rest : List Char) :
    (number (some width)).run (Text.Digits.text 10 width value ++ rest) = .ok (value, rest) := by
  have hlimit : ∀ most, some width = some most → width ≤ most :=
    fun most hmost => Nat.le_of_eq (Option.some.inj hmost)
  rw [number_text hwidth hlt hbound hlimit, Option.map_some, Nat.sub_self, more_full]

theorem number_unlimited {width value : Nat} (hwidth : 0 < width) (hlt : value < 10 ^ width)
    (hbound : value ≤ greatestTotal) {next : Char} (hnext : isDigit next = false)
    (rest : List Char) :
    (number none).run (Text.Digits.text 10 width value ++ next :: rest) =
      .ok (value, next :: rest) := by
  rw [number_text hwidth hlt hbound fun most hmost => by cases hmost]
  exact more_stop hnext ..

/-! Separators. -/

theorem blanks_run {next : Char} (hnext : Text.isBlank next = false) (rest : List Char) :
    blanks.run (next :: rest) = .ok ((), next :: rest) := by
  change Except.ok ((), (next :: rest).dropWhile Text.isBlank) = _
  rw [List.dropWhile_cons_of_neg (by simp [hnext])]

theorem literal_run {expected : Char} (hexpected : Text.isBlank expected = false)
    (rest : List Char) : (literal expected).run (expected :: rest) = .ok ((), rest) := by
  rw [literal, run_bind_ok (blanks_run hexpected rest)]
  change (if expected = expected then set rest else throw .invalid : Scan Unit).run _ = _
  rw [if_pos rfl]
  rfl

theorem isBlank_character {digit : Nat} (hlt : digit < 10) :
    Text.isBlank (character digit) = false := by
  revert digit
  decide

theorem blanks_text {width : Nat} (hwidth : 0 < width) (value : Nat) (rest : List Char) :
    blanks.run (Text.Digits.text 10 width value ++ rest) =
      .ok ((), Text.Digits.text 10 width value ++ rest) := by
  obtain ⟨first, digits, hfirst, htext⟩ := exists_text_cons hwidth value
  rw [htext]
  exact blanks_run (isBlank_character hfirst) _

theorem between_run (rest : List Char) : between.run ('T' :: rest) = .ok ((), rest) := rfl

theorem offset_run : offset.run ['Z'] = .ok (0, []) := rfl

/-! Fields. -/

theorem within_run {low high value : Nat} (hlow : low ≤ value) (hhigh : value ≤ high)
    (hlt : value < 10 ^ 2) (rest : List Char) :
    (within low high 2).run (Text.Digits.text 10 2 value ++ rest) = .ok (value, rest) := by
  have hbound : value ≤ greatestTotal := by
    have : (10 : Nat) ^ 2 ≤ greatestTotal := by decide
    omega
  rw [within, run_bind_ok (blanks_text (by decide) value rest),
    run_bind_ok (number_limited (by decide) hlt hbound rest), if_pos ⟨hlow, hhigh⟩]
  rfl

theorem bounded_run {value : Int} (hlow : -(2 ^ 31 : Int) ≤ value) (hhigh : value < 2 ^ 31)
    (rest : List Char) : (year.bounded value).run rest = .ok (value, rest) := by
  rw [year.bounded, if_pos ⟨hlow, hhigh⟩]
  rfl

theorem year_negative (rest : List Char) :
    year.run ('-' :: rest) = ((number none) >>= fun value => year.bounded (-(value : Int))).run rest :=
  rfl

theorem year_positive (rest : List Char) :
    year.run ('+' :: rest) = ((number none) >>= fun value => year.bounded (value : Int)).run rest :=
  rfl

theorem year_plain {digit : Nat} (hlt : digit < 10) (rest : List Char) :
    year.run (character digit :: rest) =
      ((number (some 4)) >>= fun value => year.bounded (value : Int)).run
        (character digit :: rest) := by
  rw [year, run_bind_ok (blanks_run (isBlank_character hlt) rest)]
  interval_cases digit <;> rfl

theorem year_run {value : Int} (hlow : Civil.leastYear ≤ value) (hhigh : value ≤ Civil.greatestYear)
    (rest : List Char) :
    year.run (yearText value ++ '-' :: rest) = .ok (value, '-' :: rest) := by
  unfold Civil.leastYear at hlow
  unfold Civil.greatestYear at hhigh
  have hmost : (10 : Nat) ^ 6 ≤ greatestTotal := by decide
  have hbounded : ∀ rest, (year.bounded value).run rest = .ok (value, rest) :=
    bounded_run (by omega) (by omega)
  -- The width holds every magnitude, and only a magnitude of four digits goes without a sign.
  obtain ⟨width, hwidth, hlt, hfour, htext⟩ : ∃ width, 0 < width ∧ value.natAbs < 10 ^ width ∧
      (value.natAbs < 10 ^ 4 → width = 4) ∧ yearText value =
        if value < 0 then '-' :: Text.Digits.text 10 width value.natAbs
        else if 10 ^ 4 ≤ value.natAbs then '+' :: Text.Digits.text 10 width value.natAbs
        else Text.Digits.text 10 width value.natAbs := by
    refine ⟨if value.natAbs < 10 ^ 4 then 4 else if value.natAbs < 10 ^ 5 then 5 else 6,
      ?_, ?_, ?_, rfl⟩
    · split_ifs <;> decide
    · split_ifs <;> omega
    · exact fun hless => if_pos hless
  have hunlimited : (number none).run (Text.Digits.text 10 width value.natAbs ++ '-' :: rest) =
      .ok (value.natAbs, '-' :: rest) :=
    number_unlimited hwidth hlt (by omega) rfl rest
  rw [htext]
  split_ifs with hnegative hlarge
  · rw [List.cons_append, year_negative, run_bind_ok hunlimited,
      show -((value.natAbs : Nat) : Int) = value by omega]
    exact hbounded _
  · rw [List.cons_append, year_positive, run_bind_ok hunlimited,
      show ((value.natAbs : Nat) : Int) = value by omega]
    exact hbounded _
  · obtain rfl := hfour (by omega)
    obtain ⟨first, digits, hfirst, hcons⟩ := exists_text_cons hwidth value.natAbs
    have hlimited := number_limited hwidth hlt (by omega) ('-' :: rest)
    rw [hcons, List.cons_append] at hlimited ⊢
    rw [year_plain hfirst, run_bind_ok hlimited,
      show ((value.natAbs : Nat) : Int) = value by omega]
    exact hbounded _

/-- A fraction of fewer digits than nine counts in units of its last digit. -/
theorem fraction_point {width value : Nat} (hwidth : 0 < width) (hle : width ≤ 9)
    (hlt : value < 10 ^ width) {next : Char} (hnext : isDigit next = false) (rest : List Char) :
    fraction.run ('.' :: (Text.Digits.text 10 width value ++ next :: rest)) =
      .ok (value * 10 ^ (9 - width), next :: rest) := by
  have hbound : value ≤ greatestTotal := by
    have hpow : 10 ^ width ≤ 10 ^ 9 := Nat.pow_le_pow_right (by decide) hle
    have hmost : (10 : Nat) ^ 9 ≤ greatestTotal := by decide
    omega
  have hnumber : (number (some 9)).run (Text.Digits.text 10 width value ++ next :: rest) =
      .ok (value, next :: rest) := by
    rw [number_text hwidth hlt hbound fun most hmost => by
      cases hmost
      exact hle]
    exact more_stop hnext ..
  have hlength : (Text.Digits.text 10 width value ++ next :: rest).length - (next :: rest).length =
      width := by
    rw [List.length_append, Text.Digits.length_text]
    omega
  have hdrop : (next :: rest).dropWhile isDigit = next :: rest := by
    rw [List.dropWhile_cons_of_neg (by simp [hnext])]
  have hpoint : ∀ tail, fraction.run ('.' :: tail) = (number (some 9) >>= fun value => do
      let after := (← get).length
      modify (·.dropWhile isDigit)
      pure (value * 10 ^ (9 - (tail.length - after)))).run tail := fun _ => rfl
  rw [hpoint, run_bind_ok hnumber]
  change Except.ok (value * 10 ^ (9 - ((Text.Digits.text 10 width value ++ next :: rest).length -
    (next :: rest).length)), (next :: rest).dropWhile isDigit) = _
  rw [hlength, hdrop]

theorem fraction_run {nanosecond : Nat} (hlt : nanosecond < 10 ^ 9) (rest : List Char) :
    fraction.run (fractionText nanosecond ++ 'Z' :: rest) = .ok (nanosecond, 'Z' :: rest) := by
  unfold fractionText
  split_ifs with hzero hmilli hmicro
  · subst hzero
    rfl
  · rw [List.cons_append, fraction_point (by decide) (by decide) (by omega) rfl]
    congr 2
    omega
  · rw [List.cons_append, fraction_point (by decide) (by decide) (by omega) rfl]
    congr 2
    omega
  · rw [List.cons_append, fraction_point (by decide) (by decide) hlt rfl]
    congr 2
    omega

theorem fields_run (instant : Instant) :
    fields.run instant.characters = .ok ((instant.toCivil, 0), []) := by
  have hvalid := instant.valid
  simp only [Civil.isValid, Bool.and_eq_true, decide_eq_true_eq] at hvalid
  obtain ⟨⟨⟨⟨⟨⟨⟨⟨⟨hleast, hgreatest⟩, hmonth⟩, hmonth'⟩, hday⟩, hday'⟩, hhour⟩, hminute⟩,
    hsecond⟩, hnanosecond⟩ := hvalid
  have hlength := Civil.daysInMonth_le instant.year instant.month
  simp only [characters, List.append_assoc, List.cons_append]
  rw [fields, run_bind_ok (year_run hleast hgreatest _), run_bind_ok (literal_run rfl _),
    run_bind_ok (within_run hmonth hmonth' (by omega) _), run_bind_ok (literal_run rfl _),
    run_bind_ok (within_run hday (by omega) (by omega) _), run_bind_ok (between_run _),
    run_bind_ok (within_run (Nat.zero_le _) (by omega) (by omega) _),
    run_bind_ok (literal_run rfl _),
    run_bind_ok (within_run (Nat.zero_le _) (by omega) (by omega) _),
    run_bind_ok (literal_run rfl _),
    run_bind_ok (within_run (Nat.zero_le _) hsecond (by omega) _),
    run_bind_ok (fraction_run hnanosecond _), run_bind_ok (blanks_run rfl _),
    run_bind_ok offset_run]
  rfl

end Scan

theorem minusMinutes_zero (instant : Instant) :
    instant.toCivil.minusMinutes 0 = instant.toCivil := by
  have hvalid := instant.valid
  simp only [Civil.isValid, Bool.and_eq_true, decide_eq_true_eq] at hvalid
  obtain ⟨⟨⟨⟨-, hhour⟩, hminute⟩, -⟩, -⟩ := hvalid
  have hstart : ¬((instant.hour : Int) * 60 + instant.minute - 0 < 0) := by omega
  have hfinish : ¬(Civil.minutesInDay ≤ (instant.hour : Int) * 60 + instant.minute - 0) := by
    unfold Civil.minutesInDay
    omega
  have hminutes : (((instant.hour : Int) * 60 + instant.minute - 0) % Civil.minutesInDay).toNat =
      instant.hour * 60 + instant.minute := by
    unfold Civil.minutesInDay
    omega
  have hhours : (instant.hour * 60 + instant.minute) / 60 = instant.hour := by omega
  have hrest : (instant.hour * 60 + instant.minute) % 60 = instant.minute := by omega
  simp only [Civil.minusMinutes]
  rw [if_neg hstart, if_neg hfinish, hminutes, hhours, hrest]

theorem read_text (instant : Instant) : read instant.text = .ok instant := by
  have hoffset : atOffset instant.toCivil 0 = .ok instant := by
    have hcivil : ofCivil? (instant.toCivil.minusMinutes 0) = some instant := by
      rw [minusMinutes_zero, ofCivil?, dif_pos instant.valid]
    rw [atOffset, if_pos instant.valid, if_pos (by decide), hcivil]
  rw [read, text, String.toList_ofList, readCharacters]
  change Except.bind (Scan.fields.run instant.characters) _ = _
  rw [Scan.fields_run]
  exact hoffset

end Instant

end Herald
