import Herald.Proofs.Identifier
import Herald.Proofs.Json.Numbers
import Herald.Proofs.Json.Printed
import Herald.Proofs.Token.Claims
import Herald.Proofs.Token.Header

/-!
Headers and claims as they are printed. A printed header of texts is plain, and printed claims
declare the user and any expiry that fits 64 bits.
-/

namespace Herald

open Text (ascii octets)

/-! Printed values where they stand. -/

namespace Json

variable {span : Span} {text : String} {number : Nat}

theorem passes_text (depth : Nat) (text : String) :
    Passes (Value.read depth) (Printer.text text) :=
  fun octet rest _ => ⟨.text text, reads_text depth text (octet :: rest)⟩

theorem passes_skipped_text (text : String) : Passes Skip.value (Printer.text text) := by
  intro octet rest _
  have hread : Reads Shape.text (Printer.text text) text := .textWith rfl
  exact Skip.tracks_textWith "a string" .ok _ text _ (hread (octet :: rest))

theorem ends_of_isMark {octet : UInt8} (hoctet : IsMark octet) (rest : List UInt8) :
    Numeral.Ends (octet :: rest) := by
  intro first hfirst
  cases hfirst
  obtain rfl | rfl := hoctet
  · decide
  · decide

theorem passes_skipped_natural (hnumber : number ≤ Numeral.greatestWhole) :
    Passes Skip.value (Printer.natural number) := by
  intro octet rest hoctet
  have hread := Value.read_natural hnumber (ends_of_isMark hoctet rest) nestingLimit
  exact Skip.tracks_natural _ number _ ((Shape.natural_eq_done_iff nestingLimit).mpr hread)

theorem Span.Stands.spells_text (hstands : span.Stands (Printer.text text)) :
    span.Spells (.text text) := by
  obtain ⟨octet, rest, -, rfl⟩ := hstands
  exact reads_text nestingLimit text (octet :: rest)

theorem Span.Stands.spells_natural (hstands : span.Stands (Printer.natural number))
    (hnumber : number ≤ Numeral.greatestWhole) : span.Spells (.number (.whole number)) := by
  obtain ⟨octet, rest, hoctet, rfl⟩ := hstands
  exact Value.read_natural hnumber (ends_of_isMark hoctet rest) nestingLimit

end Json

namespace Token

open Json (Locates Printer.natural Printer.record Printer.text)

/-- A header of texts. -/
def printedHeader (fields : List (String × String)) : String :=
  Printer.record (fields.map fun field => (field.1, Printer.text field.2))

def printedClaims (user : Identifier) (expiry : Nat) : String :=
  Printer.record [("sub", Printer.text user.text), ("exp", Printer.natural expiry)]

theorem exists_plain {fields : List (String × String)} {algorithm : Algorithm}
    (hnodup : (fields.map (·.1)).Nodup)
    (hfields : ∀ field ∈ fields, field.1 ∉ "jwk" :: textListFields)
    (halgorithm : ("alg", algorithm.name) ∈ fields) :
    ∃ members, Plain (octets (printedHeader fields)) members algorithm := by
  have hpasses : ∀ member ∈ fields.map fun field => (field.1, Printer.text field.2),
      Json.Passes (Json.Value.read headerDepth) member.2 := by
    rw [List.forall_mem_map]
    exact fun field _ => Json.passes_text headerDepth field.2
  obtain ⟨members, hlocates, hconsists⟩ := Json.consists_printed hpasses
  have hnames : members.map (·.1) = fields.map (·.1) := by
    rw [Json.names_of_locates hlocates, List.map_map]
    rfl
  have hprinted {place : String × Json.Span} (hplace : place ∈ members) :
      ∃ field ∈ fields, Locates (field.1, Printer.text field.2) place := by
    obtain ⟨member, hmember, hlocated⟩ := Json.exists_printed_of_mem hlocates place hplace
    obtain ⟨field, hfield, rfl⟩ := List.mem_map.mp hmember
    exact ⟨field, hfield, hlocated⟩
  refine ⟨members, hconsists, hnames ▸ hnodup, fun place hplace => ?_, fun place hplace => ?_, ?_⟩
  · obtain ⟨field, -, -, hstands⟩ := hprinted hplace
    exact ⟨field.2, hstands.spells_text⟩
  · obtain ⟨field, hfield, hname, -⟩ := hprinted hplace
    rw [hname]
    exact hfields field hfield
  · obtain ⟨⟨name, span⟩, hplace, hname, hstands⟩ := Json.exists_place_of_mem hlocates
      ("alg", Printer.text algorithm.name) (List.mem_map_of_mem halgorithm)
    obtain rfl : name = "alg" := hname
    exact ⟨span, hplace, hstands.spells_text⟩

theorem exists_declares (user : Identifier) {expiry : Nat} (hexpiry : expiry < 2 ^ 64) :
    ∃ members, members.length = 2 ∧
      Declares (octets (printedClaims user expiry)) members user expiry := by
  have hnumber : expiry ≤ Json.Numeral.greatestWhole := Nat.le_pred_of_lt hexpiry
  have hpasses : ∀ member ∈ [("sub", Printer.text user.text), ("exp", Printer.natural expiry)],
      Json.Passes Json.Skip.value member.2 :=
    List.forall_mem_cons.mpr ⟨Json.passes_skipped_text user.text,
      List.forall_mem_singleton.mpr (Json.passes_skipped_natural hnumber)⟩
  obtain ⟨members, hlocates, hconsists⟩ := Json.consists_printed hpasses
  cases hlocates with
  | @cons _ subject _ _ hsubject hlocates =>
  cases hlocates with
  | @cons _ time _ _ htime hlocates =>
  cases hlocates
  obtain ⟨_, subject⟩ := subject
  obtain ⟨_, time⟩ := time
  obtain ⟨rfl, hsubject⟩ := hsubject
  obtain ⟨rfl, htime⟩ := htime
  refine ⟨_, rfl, hconsists, ?_, ?_⟩
  · exact ⟨subject, user.text, rfl, hsubject.spells_text, Identifier.read_text user⟩
  · exact ⟨time, rfl, htime.spells_natural hnumber⟩

end Token

end Herald
