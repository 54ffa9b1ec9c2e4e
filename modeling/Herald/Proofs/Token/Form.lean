import Herald.Proofs.Except
import Herald.Proofs.Token.Base64
import Herald.Token.Access
import Mathlib.Data.List.TakeWhile

/-!
The form of a token: three texts in Base64 with dots between them, the last of which spells the
keyed digest of the octets before its dot. The claims of a token are looked at only if it has this
form and its header is for the one algorithm.
-/

namespace Herald.Token

variable {secret token header claims : List UInt8}

theorem splitLast?_eq_some_iff {octets before after : List UInt8} :
    splitLast? octets = some (before, after) ↔ octets = before ++ dot :: after ∧ dot ∉ after := by
  rw [splitLast?]
  constructor
  · intro hsplit
    cases hdrop : octets.reverse.dropWhile (· ≠ dot) with
    | nil =>
        rw [hdrop] at hsplit
        cases hsplit
    | cons first rest =>
        simp only [hdrop, Option.some.injEq, Prod.mk.injEq] at hsplit
        obtain ⟨rfl, rfl⟩ := hsplit
        have hfirst : first = dot := by
          have hhead := List.head?_dropWhile_not (· ≠ dot) octets.reverse
          rw [hdrop] at hhead
          simpa using hhead
        have hwhole := List.takeWhile_append_dropWhile (p := (· ≠ dot)) (l := octets.reverse)
        rw [hdrop, hfirst] at hwhole
        refine ⟨?_, ?_⟩
        · calc
            octets = octets.reverse.reverse := octets.reverse_reverse.symm
            _ = (octets.reverse.takeWhile (· ≠ dot) ++ dot :: rest).reverse := by rw [hwhole]
            _ = rest.reverse ++ dot :: (octets.reverse.takeWhile (· ≠ dot)).reverse := by simp
        · intro hmem
          have hnot := List.mem_takeWhile_imp (List.mem_reverse.mp hmem)
          simp at hnot
  · rintro ⟨rfl, hafter⟩
    have hclean : ∀ octet ∈ after.reverse, decide (octet ≠ dot) = true := by
      intro octet hmem
      apply decide_eq_true
      rintro rfl
      exact hafter (List.mem_reverse.mp hmem)
    have hreverse : (before ++ dot :: after).reverse = after.reverse ++ dot :: before.reverse := by
      simp
    rw [hreverse, List.dropWhile_append_of_pos hclean, List.takeWhile_append_of_pos hclean]
    simp

theorem dot_notMem_encode (octets : List UInt8) : dot ∉ Base64.encode octets := by
  intro hmem
  have hsymbol := Base64.isSome_of_mem_encode hmem
  have hdot : Base64.symbolValue? dot = none := rfl
  rw [hdot] at hsymbol
  cases hsymbol

theorem decoded_eq_ok_iff {symbols octets : List UInt8} :
    decoded symbols = .ok octets ↔ symbols = Base64.encode octets := by
  rw [← Base64.decode_eq_ok_iff, decoded]
  cases Base64.decode symbols with
  | ok found => simp
  | error fault => simp

theorem parsed_eq_ok_iff {α : Type} {reader : Json.Reader α} {input : List UInt8} {value : α} :
    parsed reader input = .ok value ↔
      ∃ rest, Json.Reader.whole reader input = .done value rest := by
  rw [parsed]
  cases Json.Reader.whole reader input with
  | done found rest => simp
  | fault fault rest => simp

/-- The part of a token that is signed. -/
def message (header claims : List UInt8) : List UInt8 :=
  Base64.encode header ++ dot :: Base64.encode claims

/-- The token that a secret makes of a header and claims. -/
def signed (secret header claims : List UInt8) : List UInt8 :=
  message header claims ++ dot :: Base64.encode (Sha256.keyed secret (message header claims))

/-- A token has three parts. -/
theorem count_dot_signed (secret header claims : List UInt8) :
    (signed secret header claims).count dot = 2 := by
  simp only [signed, message, List.count_append, List.count_cons_self,
    List.count_eq_zero_of_not_mem (dot_notMem_encode _)]

theorem ofToken?_eq_some_iff {parts : Parts} :
    Parts.ofToken? token = some parts ↔
      token = parts.signed ++ dot :: parts.signature ∧ dot ∉ parts.signature ∧
        parts.signed = parts.header ++ dot :: parts.claims ∧ dot ∉ parts.claims := by
  rw [Parts.ofToken?, Option.bind_eq_some_iff]
  constructor
  · rintro ⟨⟨message, signature⟩, htoken, hparts⟩
    obtain ⟨⟨header, claims⟩, hmessage, rfl⟩ := Option.map_eq_some_iff.mp hparts
    obtain ⟨rfl, hsignature⟩ := splitLast?_eq_some_iff.mp htoken
    obtain ⟨rfl, hclaims⟩ := splitLast?_eq_some_iff.mp hmessage
    exact ⟨rfl, hsignature, rfl, hclaims⟩
  · rintro ⟨htoken, hsignature, hmessage, hclaims⟩
    refine ⟨(parts.signed, parts.signature), splitLast?_eq_some_iff.mpr ⟨htoken, hsignature⟩, ?_⟩
    apply Option.map_eq_some_iff.mpr
    exact ⟨(parts.header, parts.claims), splitLast?_eq_some_iff.mpr ⟨hmessage, hclaims⟩, rfl⟩

theorem signedClaims_eq_ok_iff :
    signedClaims secret token = .ok claims ↔
      ∃ header, token = signed secret header claims ∧
        ∃ found, parsed headerReader header = .ok found ∧ found.algorithm = .hs256 := by
  rw [signedClaims]
  constructor
  · intro hclaims
    cases hparts : Parts.ofToken? token with
    | none =>
        rw [hparts] at hclaims
        cases hclaims
    | some parts =>
        obtain ⟨htoken, -, hmessage, -⟩ := ofToken?_eq_some_iff.mp hparts
        simp only [hparts] at hclaims
        obtain ⟨header, hheader, hclaims⟩ := Except.bind_eq_ok_iff.mp hclaims
        obtain ⟨found, hfound, hclaims⟩ := Except.bind_eq_ok_iff.mp hclaims
        split at hclaims
        case isTrue => cases hclaims
        case isFalse halgorithm =>
          obtain ⟨signature, hsignature, hclaims⟩ := Except.bind_eq_ok_iff.mp hclaims
          split at hclaims
          case isFalse => cases hclaims
          case isTrue hdigest =>
            rw [decoded_eq_ok_iff] at hheader hsignature hclaims
            rw [hheader, hclaims] at hmessage
            refine ⟨header, ?_, found, hfound, Decidable.not_not.mp halgorithm⟩
            rw [htoken, hsignature, hdigest, hmessage]
            rfl
  · rintro ⟨header, rfl, found, hfound, halgorithm⟩
    have hparts : Parts.ofToken? (signed secret header claims) =
        some ⟨Base64.encode header, Base64.encode claims, message header claims,
          Base64.encode (Sha256.keyed secret (message header claims))⟩ :=
      ofToken?_eq_some_iff.mpr ⟨rfl, dot_notMem_encode _, rfl, dot_notMem_encode _⟩
    have hdecoded (octets : List UInt8) : decoded (Base64.encode octets) = .ok octets :=
      decoded_eq_ok_iff.mpr rfl
    simp only [hparts, hdecoded]
    change (do
      let header ← parsed headerReader header
      if header.algorithm ≠ .hs256 then _ else _ : Except Fault _) = _
    rw [hfound]
    change (if found.algorithm ≠ .hs256 then _ else _ : Except Fault _) = _
    rw [if_neg (not_not_intro halgorithm)]
    exact if_pos rfl

end Herald.Token
