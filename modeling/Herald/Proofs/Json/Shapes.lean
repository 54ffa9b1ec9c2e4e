import Herald.Notification.Text
import Herald.Proofs.Json.Scalars
import Mathlib.Data.List.DropRight

/-!
Values that may be null, and values of a few names. A name may stand on its own, or as the one
member of a record, which is then null.
-/

namespace Herald.Json

open Text (ascii)

variable {α β : Type} {depth : Nat} {input inside rest : List UInt8}

theorem Value.read_dropWhile (depth : Nat) (input : List UInt8) :
    Value.read depth (input.dropWhile Reader.isBlank) = Value.read depth input := by
  have hpeek : Reader.peekToken (input.dropWhile Reader.isBlank) = Reader.peekToken input := by
    cases hinput : input.dropWhile Reader.isBlank with
    | nil => rw [Reader.peekToken_of_nil hinput, Reader.peekToken_of_nil rfl]
    | cons octet inside =>
        have hagain : (octet :: inside).dropWhile Reader.isBlank = octet :: inside := by
          rw [← hinput, List.dropWhile_idempotent]
        rw [Reader.peekToken_of_cons hinput, Reader.peekToken_of_cons hagain]
  rw [Value.read.eq_def, Reader.bind_apply, Reader.bind_apply, hpeek]

theorem Value.read_null (depth : Nat)
    (hinput : input.dropWhile Reader.isBlank = ascii 'n' :: inside)
    (hword : Reader.word ['u', 'l', 'l'] inside = .done () rest) :
    Value.read depth input = .done .null rest := by
  rw [Value.read.eq_def, Reader.bind_done (Reader.peekToken_of_cons hinput)]
  change (Reader.word ['u', 'l', 'l'] >>= fun _ => pure Value.null) inside = _
  rw [Reader.bind_done hword]
  rfl

/-! Values that may be null. -/

theorem Tracks.optional {reader : Reader α} (htracks : Tracks (Value.read depth) reader) :
    Tracks (Value.read depth) (Shape.optional reader) := by
  intro input result rest hdone
  have hvalue (hdone : (reader >>= fun value => pure (some value))
      (input.dropWhile Reader.isBlank) = .done result rest) :
      ∃ value, Value.read depth input = .done value rest := by
    rw [← Value.read_dropWhile]
    exact htracks.map some _ _ _ hdone
  cases hinput : input.dropWhile Reader.isBlank with
  | nil =>
      rw [Shape.optional, Reader.bind_done (Reader.peekToken_of_nil hinput)] at hdone
      rw [hinput] at hvalue
      exact hvalue hdone
  | cons octet inside =>
      rw [Shape.optional, Reader.bind_done (Reader.peekToken_of_cons hinput)] at hdone
      rw [hinput] at hvalue
      dsimp only at hdone
      split at hdone
      case isTrue hnull =>
        subst hnull
        obtain ⟨_, unread, hunread, hdone⟩ := Reader.bind_eq_done hdone
        cases hunread
        obtain ⟨_, hword, -⟩ := Reader.map_eq_done hdone
        exact ⟨.null, Value.read_null depth hinput hword⟩
      case isFalse => exact hvalue hdone

/-- A text is no null. -/
theorem Shape.optional_of_text {text : String}
    (hdone : Value.read depth input = .done (.text text) rest) :
    Shape.optional Shape.text input = .done (some text) rest := by
  obtain ⟨inside, hinput, hquoted⟩ := Value.quoted_of_read hdone
  have htext : Shape.text (ascii '"' :: inside) = .done text rest := by
    rw [← Value.read_dropWhile, hinput] at hdone
    exact (Shape.textWith_eq_done_iff depth).mpr ⟨text, hdone, rfl⟩
  rw [Shape.optional, Reader.bind_done (Reader.peekToken_of_cons hinput)]
  change (Shape.text >>= fun value => pure (some value)) (ascii '"' :: inside) = _
  rw [Reader.bind_done htext]
  rfl

/-! Names. -/

theorem Shape.read_of_void {input rest : List UInt8} (depth : Nat)
    (hdone : Shape.void input = .done () rest) : Value.read depth input = .done .null rest := by
  rw [Shape.void] at hdone
  obtain ⟨octet, inside, hinput, hdone⟩ := Shape.exists_of_byFirst hdone
  split at hdone
  case isTrue hnull =>
    subst hnull
    exact Value.read_null depth hinput hdone
  case isFalse => exact absurd hdone (Reader.Fails.unexpected "unit").ne_done

/-- The one member of a record. -/
theorem Value.read_singleton {name : String} {value : Value} {between behind after : List UInt8}
    (hinput : input.dropWhile Reader.isBlank = ascii '\x7b' :: inside)
    {quotation : List UInt8} (hinside : inside.dropWhile Reader.isBlank = ascii '"' :: quotation)
    (hname : Quotation.quoted (ascii '"' :: quotation) = .done name between)
    (hcolon : Reader.colon between = .done () behind)
    (hvalue : Value.read depth behind = .done value after)
    (hafter : after.dropWhile Reader.isBlank = ascii '\x7d' :: rest) :
    Value.read (depth + 1) input = .done (.record [(name, value)]) rest := by
  have hkey : Reader.nextKey true inside = .done true (ascii '"' :: quotation) := by
    rw [Reader.nextKey, Reader.bind_done (Reader.peekToken_of_cons hinside)]
    rfl
  have hend : Reader.nextKey false after = .done false (ascii '\x7d' :: rest) := by
    rw [Reader.nextKey, Reader.bind_done (Reader.peekToken_of_cons hafter)]
    rfl
  have hmember : gatherMember depth [] name between = .done [(name, value)] after := by
    have hread : Reader.member name (Value.read depth) between = .done value after := by
      apply Reader.under_done
      rw [Reader.bind_done hcolon]
      exact hvalue
    rw [gatherMember, Reader.bind_done hread]
    rfl
  have hclose : Reader.closeRecord (ascii '\x7d' :: rest) = .done () rest := rfl
  obtain ⟨unit, fuel, hfuel⟩ : ∃ unit fuel, inside = unit :: fuel := by
    cases inside with
    | nil => cases hinside
    | cons unit fuel => exact ⟨unit, fuel, rfl⟩
  have hmembers : Reader.foldMembers Quotation.quoted (gatherMember depth) [] inside =
      .done [(name, value)] (ascii '\x7d' :: rest) := by
    rw [Reader.foldMembers, Reader.foldMembers.loop, Reader.bind_done (Reader.under_done hkey _),
      if_pos rfl, Reader.bind_done (Reader.under_done hname _), Reader.bind_done hmember, hfuel,
      Reader.foldMembers.loop, Reader.bind_done (Reader.under_done hend _)]
    rfl
  rw [Value.read_of_recordStart depth hinput, Reader.bind_apply, inRecord_cons, Reader.enclosed,
    hmembers]
  dsimp only
  rw [hclose]
  rfl

/-- A name stands on its own or in a record. -/
theorem Shape.read_of_variant {check : String → Except Mismatch α} {result : α} (depth : Nat)
    (hdone : Shape.variant check input = .done result rest) :
    ∃ name, check name = .ok result ∧
      (Value.read (depth + 1) input = .done (.text name) rest ∨
        Value.read (depth + 1) input = .done (.record [(name, .null)]) rest) := by
  rw [Shape.variant] at hdone
  obtain ⟨octet, inside, hinput, hdone⟩ := Shape.exists_of_byFirst hdone
  split at hdone
  case isTrue hquote =>
    rw [← hinput, Shape.textWith_eq_done_iff (depth + 1)] at hdone
    obtain ⟨name, hname, hcheck⟩ := hdone
    rw [Value.read_dropWhile] at hname
    exact ⟨name, hcheck, .inl hname⟩
  case isFalse =>
    split at hdone
    case isFalse => cases hdone
    case isTrue hrecord =>
      subst hrecord
      obtain ⟨_, unread, hunread, hdone⟩ := Reader.bind_eq_done hdone
      cases hunread
      obtain ⟨value, between, hvalue, hdone⟩ := Reader.bind_eq_done hdone
      obtain ⟨_, behind, hcolon, hdone⟩ := Reader.bind_eq_done hdone
      obtain ⟨_, after, hvoid, hdone⟩ := Reader.bind_eq_done hdone
      obtain ⟨name, hname, hcheck⟩ := (Shape.textWith_eq_done_iff depth).mp hvalue
      obtain ⟨quotation, hinside, hquoted⟩ := Value.quoted_of_read hname
      cases hafter : after.dropWhile Reader.isBlank with
      | nil =>
          rw [Reader.bind_done (Reader.peekToken_of_nil hafter)] at hdone
          cases hdone
      | cons octet left =>
          rw [Reader.bind_done (Reader.peekToken_of_cons hafter)] at hdone
          dsimp only at hdone
          split at hdone
          case isFalse => cases hdone
          case isTrue hend =>
            subst hend
            cases hdone
            exact ⟨name, hcheck, .inr (Value.read_singleton hinput hinside hquoted hcolon
              (Shape.read_of_void depth hvoid) hafter)⟩

theorem Tracks.variant (depth : Nat) (check : String → Except Mismatch α) :
    Tracks (Value.read (depth + 1)) (Shape.variant check) := by
  intro input result rest hdone
  obtain ⟨name, -, hname | hrecord⟩ := Shape.read_of_variant depth hdone
  · exact ⟨_, hname⟩
  · exact ⟨_, hrecord⟩

theorem Shape.variant_of_text {check : String → Except Mismatch α} {name : String} {result : α}
    (hname : Value.read depth input = .done (.text name) rest) (hcheck : check name = .ok result) :
    Shape.variant check input = .done result rest := by
  obtain ⟨inside, hinput, -⟩ := Value.quoted_of_read hname
  rw [← Value.read_dropWhile, hinput] at hname
  rw [Shape.variant, Shape.byFirst_of_cons hinput, if_pos rfl]
  exact (Shape.textWith_eq_done_iff depth).mpr ⟨name, hname, hcheck⟩

end Herald.Json
