import Herald.Json.Skip
import Herald.Proofs.Json.Tracking

/-!
What is read can be passed over. Where a text or a number is read, passing over a value comes just
as far, whatever follows.
-/

namespace Herald.Json

open Text (ascii)
open Text.Digits (isDecimal)

variable {octet : UInt8} {input inside rest : List UInt8} {negative : Bool} {total dropped : Nat}
  {places : Int} {number : Number}

/-! Numbers end before what follows them. -/

theorem Reader.Fails.fail {α : Type} (cause : Cause) : Fails (Reader.fail cause : Reader α) :=
  fun _ => ⟨_, _, rfl⟩

namespace Numeral

/-- A number starts with a minus sign or a digit. -/
theorem ne_of_starts {letter : Char} (hnumber : (octet = ascii '-' || isDecimal octet) = true)
    (hletter : (ascii letter = ascii '-' || isDecimal (ascii letter)) = false) :
    octet ≠ ascii letter := by
  rintro rfl
  rw [hletter] at hnumber
  cases hnumber

theorem idle_real (negative : Bool) (total : Nat) (places : Int) :
    Reader.Idle (real negative total places) := by
  rw [real]
  split
  · exact .pure _
  · exact (Reader.Fails.fail _).idle

theorem idle_wholeEnd (negative : Bool) (total dropped : Nat) :
    Reader.Idle (afterWhole.wholeEnd negative total dropped) := by
  rw [afterWhole.wholeEnd]
  split
  · exact idle_real _ _ _
  split
  · exact .pure _
  split
  · exact idle_real _ _ _
  · exact .pure _

/-- An exponent ends behind its digits, also where it is too large for any of them to count. -/
theorem rest_of_exponentDigits {shrinks : Bool}
    (hdone : exponentDigits negative total places shrinks input = .done number rest) :
    rest = input.dropWhile isDecimal := by
  rw [exponentDigits] at hdone
  dsimp only at hdone
  split at hdone
  · split at hdone
    · cases hdone
    · cases hdone
      rfl
  · exact idle_real _ _ _ _ _ _ hdone

end Numeral

namespace Skip

/-! Quotations. -/

/-- How far a quotation that is passed over looks at where it stands. -/
def ofMode : Quotation.Mode → Mode
  | .plain => .plain
  | .escape => .escape
  | .unit _ digits => .unit digits.reverse
  | .paired _ => .plain
  | .pairedEscape _ => .escape

variable {more : List UInt8} {mode next : Quotation.Mode}

theorem isHexadecimal_of_unitValue? {digits : List UInt8} {value : Nat}
    (hvalue : Quotation.unitValue? digits = some value) :
    ∀ digit ∈ digits, (Text.Digits.hexadecimal? digit).isSome = true := by
  obtain ⟨values, hvalues, -⟩ := Option.map_eq_some_iff.mp hvalue
  exact Text.Digits.isSome_of_mapM_eq_some hvalues

theorem ofMode_of_unitMove {lead : Option Nat} {unit : Nat}
    (hmove : Quotation.unitMove lead unit = .go next more) : ofMode next = .plain := by
  cases lead with
  | none =>
      rw [Quotation.unitMove] at hmove
      split at hmove
      · cases hmove
      split at hmove
      · cases hmove
        rfl
      · cases hmove
        rfl
  | some lead =>
      rw [Quotation.unitMove] at hmove
      split at hmove
      · cases hmove
        rfl
      · cases hmove

theorem quotation_of_unit {lead : Option Nat} {digits : List UInt8}
    (hmove : (Quotation.Mode.unit lead digits).move octet = .go next more) (rest : List UInt8) :
    quotation (.unit digits.reverse) (octet :: rest) = quotation (ofMode next) rest := by
  rw [Quotation.Mode.move] at hmove
  rw [quotation, List.length_reverse]
  split at hmove
  case isTrue hshort =>
    cases hmove
    rw [if_pos hshort, ofMode, List.reverse_append]
    rfl
  case isFalse hlast =>
    rw [if_neg hlast]
    cases hvalue : Quotation.unitValue? (digits ++ [octet]) with
    | none =>
        rw [hvalue] at hmove
        cases hmove
    | some value =>
        rw [hvalue] at hmove
        have hdigits : (octet :: digits.reverse).all (fun digit =>
            (Text.Digits.hexadecimal? digit).isSome) = true := by
          rw [List.all_eq_true]
          intro digit hmem
          apply isHexadecimal_of_unitValue? hvalue
          simpa [or_comm] using hmem
        rw [if_pos hdigits, ofMode_of_unitMove hmove]

theorem quotation_of_escape (hmove : Quotation.escapeMove octet = .go next more)
    (rest : List UInt8) :
    quotation .escape (octet :: rest) = quotation (ofMode next) rest := by
  unfold Quotation.escapeMove at hmove
  iterate 8
    split at hmove
    · subst octet
      cases hmove
      rfl
  split at hmove
  · subst octet
    cases hmove
    rfl
  · cases hmove

/-- Each move within a quotation is one when it is passed over. -/
theorem quotation_of_go (hmove : mode.move octet = .go next more) (rest : List UInt8) :
    quotation (ofMode mode) (octet :: rest) = quotation (ofMode next) rest := by
  cases mode with
  | plain =>
      rw [Quotation.Mode.move] at hmove
      rw [ofMode, quotation]
      split at hmove
      case isTrue => cases hmove
      case isFalse hmark =>
        rw [if_neg hmark]
        split at hmove
        case isTrue hslash =>
          cases hmove
          exact if_pos hslash
        case isFalse hslash =>
          rw [if_neg hslash]
          split at hmove
          case isTrue => cases hmove
          case isFalse hcontrol =>
            cases hmove
            exact if_neg hcontrol
  | escape => exact quotation_of_escape hmove rest
  | unit lead digits => exact quotation_of_unit hmove rest
  | paired lead =>
      rw [Quotation.Mode.move] at hmove
      split at hmove
      case isTrue hslash =>
        subst hslash
        cases hmove
        rfl
      case isFalse => cases hmove
  | pairedEscape lead =>
      rw [Quotation.Mode.move] at hmove
      split at hmove
      case isTrue hunit =>
        subst hunit
        cases hmove
        rfl
      case isFalse => cases hmove

theorem escapeMove_ne_close (octet : UInt8) : Quotation.escapeMove octet ≠ .close := by
  unfold Quotation.escapeMove
  iterate 9
    split
    · exact nofun
  exact nofun

theorem unitMove_ne_close (lead : Option Nat) (unit : Nat) :
    Quotation.unitMove lead unit ≠ .close := by
  intro hclose
  cases lead with
  | none =>
      rw [Quotation.unitMove] at hclose
      split at hclose
      · cases hclose
      split at hclose
      · cases hclose
      · cases hclose
  | some lead =>
      rw [Quotation.unitMove] at hclose
      split at hclose
      · cases hclose
      · cases hclose

/-- Only a plain mark closes a quotation. -/
theorem plain_of_close (hmove : mode.move octet = .close) : mode = .plain ∧ octet = ascii '"' := by
  cases mode with
  | plain =>
      rw [Quotation.Mode.move] at hmove
      split at hmove
      case isTrue hmark => exact ⟨rfl, hmark⟩
      case isFalse =>
        split at hmove
        · cases hmove
        split at hmove
        · cases hmove
        · cases hmove
  | escape => exact absurd hmove (escapeMove_ne_close octet)
  | unit lead digits =>
      rw [Quotation.Mode.move] at hmove
      split at hmove
      · cases hmove
      split at hmove
      · cases hmove
      · exact absurd hmove (unitMove_ne_close lead _)
  | paired lead =>
      rw [Quotation.Mode.move] at hmove
      split at hmove
      · cases hmove
      · cases hmove
  | pairedEscape lead =>
      rw [Quotation.Mode.move] at hmove
      split at hmove
      · cases hmove
      · cases hmove

theorem quotation_of_contents {gained octets : List UInt8}
    (hdone : Quotation.contents mode gained input = .done octets rest) :
    quotation (ofMode mode) input = .done () rest := by
  induction input generalizing mode gained with
  | nil => cases hdone
  | cons octet input ih =>
      rw [Quotation.contents] at hdone
      cases hmove : mode.move octet with
      | go next more =>
          rw [hmove] at hdone
          rw [quotation_of_go hmove]
          exact ih hdone
      | close =>
          rw [hmove] at hdone
          cases hdone
          obtain ⟨rfl, rfl⟩ := plain_of_close hmove
          rfl
      | stop cause =>
          rw [hmove] at hdone
          cases hdone

theorem quotation_of_quoted {text : String}
    (hdone : Quotation.quoted (ascii '"' :: input) = .done text rest) :
    quotation .plain input = .done () rest := by
  change Quotation.text input = .done text rest at hdone
  rw [Quotation.text] at hdone
  cases hcontents : Quotation.contents .plain [] input with
  | fault fault left =>
      rw [hcontents] at hdone
      cases hdone
  | done octets left =>
      simp only [hcontents] at hdone
      split at hdone
      case h_1 =>
        cases hdone
        exact quotation_of_contents hcontents
      case h_2 => cases hdone

/-! Numbers. -/

theorem tracks_exponentSign : Tracks exponentSign Numeral.exponentSign := by
  intro input negative rest hdone
  refine ⟨(), ?_⟩
  cases input with
  | nil =>
      cases hdone
      rfl
  | cons octet input =>
      change (if octet = ascii '+' then _ else if octet = ascii '-' then _ else _ : Reader Bool) _ =
        _ at hdone
      change (if (octet = ascii '+' || octet = ascii '-') = true then _ else _ : Reader Unit) _ = _
      by_cases hplus : octet = ascii '+'
      · rw [if_pos hplus] at hdone
        cases hdone
        rw [if_pos (by simp [hplus])]
        rfl
      by_cases hminus : octet = ascii '-'
      · rw [if_neg hplus, if_pos hminus] at hdone
        cases hdone
        rw [if_pos (by simp [hminus])]
        rfl
      · rw [if_neg hplus, if_neg hminus] at hdone
        cases hdone
        rw [if_neg (by simp [hplus, hminus])]
        rfl

theorem exponent_of_exponent (letter : UInt8)
    (hdone : Numeral.exponent negative total places input = .done number rest) :
    exponent (letter :: input) = .done () rest := by
  obtain ⟨shrinks, unread, hsign, hdone⟩ := Reader.bind_eq_done hdone
  obtain ⟨_, hskipped⟩ := tracks_exponentSign input shrinks unread hsign
  change (exponentSign >>= fun _ => _ : Reader Unit) input = _
  rw [Reader.bind_done hskipped]
  cases unread with
  | nil => cases hdone
  | cons octet unread =>
      change (if isDecimal octet = true then _ else _ : Reader Number) (octet :: unread) = _
        at hdone
      change (if isDecimal octet = true then decimals else _ : Reader Unit) unread = _
      by_cases hdigit : isDecimal octet = true
      · rw [if_pos hdigit] at hdone
        rw [if_pos hdigit, decimals, Numeral.rest_of_exponentDigits hdone,
          List.dropWhile_cons_of_pos hdigit]
      · rw [if_neg hdigit] at hdone
        cases hdone

/-- The letter of an exponent is looked for before the end of a number. -/
theorem maybeExponent_of_letter {finish : Reader Number} (hfinish : Reader.Idle finish)
    (hdone : (if octet = ascii 'e' || octet = ascii 'E' then do
        Reader.advance
        Numeral.exponent negative total places
      else finish : Reader Number) (octet :: input) = .done number rest) :
    maybeExponent (octet :: input) = .done () rest := by
  change (if (octet = ascii 'e' || octet = ascii 'E') = true then _ else _ : Reader Unit) _ = _
  split at hdone
  case isTrue hletter =>
    rw [if_pos hletter]
    exact exponent_of_exponent octet hdone
  case isFalse hletter =>
    obtain rfl := hfinish _ _ _ hdone
    rw [if_neg hletter]
    rfl

theorem maybeExponent_of_scaledEnd
    (hdone : Numeral.scaledEnd negative total places input = .done number rest) :
    maybeExponent input = .done () rest := by
  cases input with
  | nil =>
      obtain rfl := Numeral.idle_real _ _ _ _ _ _ hdone
      rfl
  | cons octet input =>
      exact maybeExponent_of_letter (Numeral.idle_real negative total places) hdone

theorem fraction_of_fraction (point : UInt8)
    (hdone : Numeral.fraction negative total places input = .done number rest) :
    fraction (point :: input) = .done () rest := by
  cases input with
  | nil => cases hdone
  | cons octet input =>
      rw [Numeral.fraction] at hdone
      change (if isDecimal octet = true then (decimals >>= fun _ => maybeExponent : Reader Unit)
        else _ : Reader Unit) (octet :: input) = _
      by_cases hdigit : isDecimal octet = true
      · rw [if_pos hdigit]
        have hdigits : Numeral.digits (octet :: input) = .done (octet :: input.takeWhile isDecimal)
            (input.dropWhile isDecimal) := by
          rw [Numeral.digits, List.takeWhile_cons_of_pos hdigit, List.dropWhile_cons_of_pos hdigit]
        rw [Reader.bind_done hdigits] at hdone
        have hdecimals : decimals (octet :: input) = .done () (input.dropWhile isDecimal) := by
          rw [decimals, List.dropWhile_cons_of_pos hdigit]
        rw [Reader.bind_done hdecimals]
        exact maybeExponent_of_scaledEnd hdone
      · have hdigits : Numeral.digits (octet :: input) = .done [] (octet :: input) := by
          rw [Numeral.digits, List.takeWhile_cons_of_neg hdigit, List.dropWhile_cons_of_neg hdigit]
        rw [Reader.bind_done hdigits] at hdone
        cases hdone

theorem afterWhole_of_afterWhole
    (hdone : Numeral.afterWhole negative total dropped input = .done number rest) :
    afterWhole input = .done () rest := by
  cases input with
  | nil =>
      obtain rfl := Numeral.idle_wholeEnd _ _ _ _ _ _ hdone
      rfl
  | cons octet input =>
      change (if octet = ascii '.' then _ else _ : Reader Number) (octet :: input) = _ at hdone
      change (if octet = ascii '.' then fraction else maybeExponent : Reader Unit) _ = _
      split at hdone
      case isTrue hpoint =>
        rw [if_pos hpoint]
        exact fraction_of_fraction octet hdone
      case isFalse hpoint =>
        rw [if_neg hpoint]
        exact maybeExponent_of_letter (Numeral.idle_wholeEnd negative total dropped) hdone

theorem number_of_unsigned (hdone : Numeral.unsigned negative input = .done number rest) :
    Skip.number input = .done () rest := by
  cases input with
  | nil => cases hdone
  | cons octet input =>
      change (if octet = ascii '0' then _ else if isDecimal octet = true then _ else _ :
        Reader Number) (octet :: input) = _ at hdone
      change (if octet = ascii '0' then _ else if isDecimal octet = true then _ else _ :
        Reader Unit) input = _
      by_cases hzero : octet = ascii '0'
      · rw [if_pos hzero] at hdone ⊢
        cases input with
        | nil =>
            obtain rfl := Numeral.idle_wholeEnd negative 0 0 [] number rest hdone
            rfl
        | cons second input =>
            change (if isDecimal second = true then _ else _ : Reader Number) (second :: input) = _
              at hdone
            change (if isDecimal second = true then _ else afterWhole : Reader Unit)
              (second :: input) = _
            split at hdone
            case isTrue => cases hdone
            case isFalse hdigit =>
              rw [if_neg hdigit]
              exact afterWhole_of_afterWhole hdone
      · rw [if_neg hzero] at hdone ⊢
        split at hdone
        case isTrue hdigit =>
          rw [if_pos hdigit]
          obtain ⟨given, unread, hdigits, hdone⟩ := Reader.bind_eq_done hdone
          cases hdigits
          rw [List.dropWhile_cons_of_pos hdigit] at hdone
          exact afterWhole_of_afterWhole hdone
        case isFalse => cases hdone

theorem number_of_number (hnumber : (octet = ascii '-' || isDecimal octet) = true)
    (hdone : Numeral.number (octet :: inside) = .done number rest) :
    tokens.scalar octet (octet :: inside) = .done () rest := by
  change (if octet = ascii '-' then _ else _ : Reader Number) (octet :: inside) = _ at hdone
  by_cases hminus : octet = ascii '-'
  · subst hminus
    rw [if_pos rfl] at hdone
    exact number_of_unsigned hdone
  · have hdigit : isDecimal octet = true := by simpa [hminus] using hnumber
    rw [if_neg hminus] at hdone
    rw [tokens.scalar, if_neg (Numeral.ne_of_starts hnumber rfl),
      if_neg (Numeral.ne_of_starts hnumber rfl), if_neg (Numeral.ne_of_starts hnumber rfl),
      if_neg hminus, if_pos hdigit]
    exact number_of_unsigned hdone

/-! Values. -/

/-- What is no bracket is one token. -/
theorem value_of_scalar (hinput : input.dropWhile Reader.isBlank = octet :: inside)
    (hlist : octet ≠ ascii '[') (hrecord : octet ≠ ascii '\x7b')
    (hscalar : tokens.scalar octet (octet :: inside) = .done () rest) :
    value input = .done () rest := by
  rw [value, tokens, Reader.bind_done (Reader.peekToken_of_cons hinput)]
  change (if octet = ascii '[' then _ else if octet = ascii '\x7b' then _ else _ : Reader Unit) _ =
    _
  rw [if_neg hlist, if_neg hrecord, Reader.bind_done hscalar]
  rfl

theorem tracks_textWith {α : Type} (expected : String) (check : String → Except Mismatch α) :
    Tracks value (Shape.textWith expected check) := by
  apply Tracks.byFirst
  intro input inside octet hinput result rest hdone
  split at hdone
  case isTrue hquote =>
    subst hquote
    obtain ⟨text, between, hquoted, hchecked⟩ :=
      Reader.bind_eq_done (Reader.placed_eq_done hdone)
    obtain rfl := Shape.idle_checked _ between result rest hchecked
    exact ⟨(), value_of_scalar hinput (by decide) (by decide) (quotation_of_quoted hquoted)⟩
  case isFalse => exact absurd hdone (Reader.Fails.unexpected expected).ne_done

end Skip

end Herald.Json
