import Herald.Http.Origins
import Herald.Proofs.Text.Octets

/-!
Which origins a response names. Entries that no header can hold are left out, a wildcard among the
others keeps the origins from being made at all, and the origin of a request is named if it is one of
them.
-/

namespace Herald

namespace Text

theorem octets_inj {left right : String} : octets left = octets right ↔ left = right := by
  constructor
  · intro hoctets
    have hread := ofOctets?_octets left
    rw [hoctets, ofOctets?_octets] at hread
    exact (Option.some.inj hread).symm
  · exact congrArg octets

end Text

namespace Http

open Text (ascii octets octetsOf)

/-- Octets that a header can hold: tabs, and all others but control characters. -/
def IsValueOctet (octet : UInt8) : Prop :=
  octet = ascii '\t' ∨ (0x20 ≤ octet.toNat ∧ octet.toNat ≠ 0x7f)

theorem isValueOctet_ascii_iff {character : Char} (hlt : character.toNat < 128) :
    IsValueOctet (ascii character) ↔
      (0x20 ≤ character.toNat ∧ character.toNat ≠ 0x7f) ∨ character = '\t' := by
  have hoctet : (ascii character).toNat = character.toNat := by
    change character.toNat % 256 = character.toNat
    omega
  have htab : ascii character = ascii '\t' ↔ character = '\t' := by
    rw [← UInt8.toNat_inj, hoctet, ← Char.toNat_inj]
    rfl
  rw [IsValueOctet, hoctet, htab]
  exact or_comm

theorem isValueOctet_utf8EncodeChar_iff (character : Char) :
    (∀ octet ∈ String.utf8EncodeChar character, IsValueOctet octet) ↔
      (0x20 ≤ character.toNat ∧ character.toNat ≠ 0x7f) ∨ character = '\t' := by
  by_cases hlt : character.toNat < 128
  · rw [Text.utf8EncodeChar_of_lt hlt, List.forall_mem_singleton, isValueOctet_ascii_iff hlt]
  · have hoctets : ∀ octet ∈ String.utf8EncodeChar character, IsValueOctet octet := by
      intro octet hoctet
      have hle := Text.le_of_mem_utf8EncodeChar (Nat.le_of_not_lt hlt) hoctet
      exact .inr (by omega)
    exact iff_of_true hoctets (.inl (by omega))

namespace Origins

variable {origins : Origins} {configured : List String} {request : Request}

/-- An entry can be a header value if each of its octets can. -/
theorem isHeaderValue_iff (text : String) :
    isHeaderValue text = true ↔ ∀ octet ∈ octets text, IsValueOctet octet := by
  rw [Text.octets_eq_octetsOf, octetsOf, List.forall_mem_flatMap, isHeaderValue, List.all_eq_true]
  apply forall₂_congr
  intro character _
  rw [isValueOctet_utf8EncodeChar_iff, Bool.or_eq_true, Bool.and_eq_true, decide_eq_true_iff,
    decide_eq_true_iff, decide_eq_true_iff]

theorem ofConfigured?_eq_none_iff : ofConfigured? configured = none ↔ wildcard ∈ configured := by
  have hwildcard : isHeaderValue wildcard = true := by decide
  rw [ofConfigured?]
  simp [hwildcard]

theorem ofConfigured?_eq_some_iff :
    ofConfigured? configured = some origins ↔
      wildcard ∉ configured ∧ origins.allowed = configured.filter isHeaderValue := by
  have hwildcard : isHeaderValue wildcard = true := by decide
  obtain ⟨allowed⟩ := origins
  rw [ofConfigured?]
  simp [hwildcard, eq_comm]

end Origins

/-! The origins that headers allow to read a response. -/

namespace Headers

def allowOrigin : String := "access-control-allow-origin"

def grants (headers : Headers) : List String :=
  (headers.filter fun header => header.1 = allowOrigin).map (·.2)

theorem grants_append (front back : Headers) :
    grants (front ++ back) = front.grants ++ back.grants := by
  rw [grants, List.filter_append, List.map_append]
  rfl

end Headers

namespace Origins

open Headers (grants_append)

variable {origins : Origins} {request : Request}

theorem grants_headers (origins : Origins) (request : Request) :
    (origins.headers request).grants = (origins.echoed? request).toList := by
  rw [headers, grants_append]
  cases origins.echoed? request with
  | none => rfl
  | some origin => rfl

theorem grants_preflight (origins : Origins) (request : Request) (allow : Option String) :
    (origins.preflight request allow).headers.grants = (origins.echoed? request).toList := by
  rw [preflight, grants_append, grants_append, grants_headers]
  cases allow with
  | none => exact List.append_nil _
  | some methods => exact List.append_nil _

theorem grants_decorate {response : Response} (hresponse : response.headers.grants = []) :
    (origins.decorate request response).headers.grants = (origins.echoed? request).toList := by
  rw [decorate, grants_append, grants_headers, hresponse, List.nil_append]

end Origins

end Http

end Herald
