import Herald.Proofs.Json.Fields
import Herald.Proofs.Json.Shapes
import Herald.Proofs.Token.Form

/-!
What the claims of a token say. Of the members of their record exactly one names the user, as the
text of an identifier, and exactly one names the expiry, as a whole number that is not negative. Claims
may also be read from a list, but a list of these two is too short to be validated afterwards.
-/

namespace Herald.Token

open Json (Consists Reader Slot Span Value)
open Text (ascii)
open Text.Digits (isDecimal)

/-- The claims are a record of the members, which name the user and the expiry once each. -/
structure Declares (payload : List UInt8) (members : List (String × Span)) (user : Identifier)
    (expiry : Nat) : Prop where
  consists : Consists Json.Skip.value payload members
  subject : ∃ span text, members.filter (·.1 = "sub") = [("sub", span)] ∧
    span.Spells (.text text) ∧ Identifier.read text = .ok user
  expiry : ∃ span, members.filter (·.1 = "exp") = [("exp", span)] ∧
    span.Spells (.number (.whole expiry))

/-! Reading the two claims. -/

theorem identifier_reader_eq_done_iff {input rest : List UInt8} {user : Identifier} :
    Identifier.reader input = .done user rest ↔
      ∃ text, Value.read Json.nestingLimit input = .done (.text text) rest ∧
        Identifier.read text = .ok user := by
  rw [Identifier.reader, Json.Shape.textWith_eq_done_iff Json.nestingLimit]
  refine exists_congr fun text => and_congr_right fun _ => ?_
  cases Identifier.read text with
  | ok value => simp
  | error fault => simp

theorem tracks_claims (name : String) :
    Json.Tracks Json.Skip.value (Slot.reader claimsSlots Slot.pass name) := by
  refine Slot.tracks_reader (fun slot hslot => ?_) Slot.tracks_pass name
  simp only [claimsSlots, List.mem_cons, List.not_mem_nil, or_false] at hslot
  obtain rfl | rfl := hslot
  · exact (Json.Skip.tracks_textWith _ _).map _
  · exact Json.Skip.tracks_natural.map _

theorem find?_subject : claimsSlots.find? (·.name = "sub") =
    some (.required "sub" Identifier.reader fun subject claims => { claims with subject }) := rfl

theorem find?_expiry : claimsSlots.find? (·.name = "exp") =
    some (.required "exp" Json.Shape.natural fun expiry claims => { claims with expiry }) := rfl

theorem keeps_subject : Slot.Keeps claimsSlots Slot.pass "sub" (·.subject) := by
  refine Slot.keeps_of_slots (fun slot hslot hname span change hchange draft => ?_)
    (fun another span change hchange draft => ?_)
  · simp only [claimsSlots, List.mem_cons, List.not_mem_nil, or_false] at hslot
    obtain rfl | rfl := hslot
    · exact absurd rfl hname
    · obtain ⟨expiry, -, rfl⟩ := Slot.exists_write_of_meaning hchange
      rfl
  · rw [Slot.eq_id_of_meaning_pass hchange]
    rfl

theorem keeps_expiry : Slot.Keeps claimsSlots Slot.pass "exp" (·.expiry) := by
  refine Slot.keeps_of_slots (fun slot hslot hname span change hchange draft => ?_)
    (fun another span change hchange draft => ?_)
  · simp only [claimsSlots, List.mem_cons, List.not_mem_nil, or_false] at hslot
    obtain rfl | rfl := hslot
    · obtain ⟨subject, -, rfl⟩ := Slot.exists_write_of_meaning hchange
      rfl
    · exact absurd rfl hname
  · rw [Slot.eq_id_of_meaning_pass hchange]
    rfl

variable {payload inside : List UInt8} {members : List (String × Span)} {claims : Claims}
  {draft : Claims} {user : Identifier} {expiry : Nat}

/-- What the members of a record of claims say. -/
theorem declares_of_result (hconsists : Consists Json.Skip.value payload members)
    (hresult : Slot.result claimsSlots Slot.pass draft members = some claims) :
    Declares payload members claims.subject claims.expiry := by
  refine ⟨hconsists, ?_, ?_⟩
  · obtain ⟨span, change, before, hfilter, hchange, hsubject⟩ :=
      Slot.filter_of_required find?_subject rfl keeps_subject hresult
    obtain ⟨subject, hmeaning, rfl⟩ := Slot.exists_write_of_meaning hchange
    have hread := hconsists.done_of_meaning (Json.Skip.tracks_textWith _ _)
      (Json.mem_of_filter hfilter) hmeaning
    obtain ⟨text, htext, hidentifier⟩ := identifier_reader_eq_done_iff.mp hread
    refine ⟨span, text, hfilter, htext, ?_⟩
    rw [hidentifier]
    exact congrArg Except.ok hsubject.symm
  · obtain ⟨span, change, before, hfilter, hchange, hexpiry⟩ :=
      Slot.filter_of_required find?_expiry rfl keeps_expiry hresult
    obtain ⟨expiry, hmeaning, rfl⟩ := Slot.exists_write_of_meaning hchange
    have hread := hconsists.done_of_meaning Json.Skip.tracks_natural (Json.mem_of_filter hfilter)
      hmeaning
    refine ⟨span, hfilter, ?_⟩
    have hspells : span.Spells (.number (.whole expiry)) :=
      (Json.Shape.natural_eq_done_iff Json.nestingLimit).mp hread
    rwa [show claims.expiry = expiry from hexpiry]

/-! Claims in a list. -/

theorem tolerated_flatClaim_of_text {depth : Nat} {input rest : List UInt8} {text : String}
    (hdone : Value.read depth input = .done (.text text) rest) :
    tolerated flatClaim input = .done () rest := by
  obtain ⟨inside, hinput, hquoted⟩ := Value.quoted_of_read hdone
  obtain ⟨fault, hfault⟩ := Json.Shape.unexpected_of_quoted "claim" hquoted
  rw [tolerated, flatClaim, Json.Shape.byFirst_of_cons hinput, if_neg (by decide),
    if_neg (by decide), hfault]
  rfl

theorem tolerated_flatClaim_of_number {depth : Nat} {input rest : List UInt8}
    {number : Json.Number} (hdone : Value.read depth input = .done (.number number) rest) :
    tolerated flatClaim input = .done () rest := by
  obtain ⟨octet, inside, hinput, hnumber, hread⟩ := Value.number_of_read hdone
  obtain ⟨fault, hfault⟩ := Json.Shape.unexpected_of_number "claim" hnumber hread
  rw [tolerated, flatClaim, Json.Shape.byFirst_of_cons hinput,
    if_neg (Json.Numeral.ne_of_starts hnumber rfl), if_neg (Json.Numeral.ne_of_starts hnumber rfl),
    hfault]
  rfl

/-- Claims in a list are taken for the user and the expiry, and validating them asks for more. -/
theorem audienceNamed_of_list {rest left : List UInt8} {named : Bool}
    (hlist : payload.dropWhile Reader.isBlank = ascii '[' :: inside)
    (hclaims : claimsReader payload = .done claims rest) :
    audienceNamed payload ≠ .done named left := by
  intro hnamed
  rw [claimsReader, Slot.record, Json.Shape.byFirst_of_cons hlist] at hclaims
  rw [audienceNamed, Slot.record, Json.Shape.byFirst_of_cons hlist] at hnamed
  obtain ⟨behind, hitems, hclose⟩ := Reader.inList_eq_done_iff.mp hclaims
  obtain ⟨behindNamed, hitemsNamed, -⟩ := Reader.inList_eq_done_iff.mp hnamed
  obtain ⟨subjectStart, _, subjectEnd, hfirst, hsubject, hitems⟩ :=
    Slot.items_cons_eq_done_iff.mp hitems
  obtain ⟨expiryStart, _, expiryEnd, hsecond, hexpiry, hitems⟩ :=
    Slot.items_cons_eq_done_iff.mp hitems
  cases hitems
  obtain ⟨user, hsubject, -⟩ := Reader.map_eq_done hsubject
  obtain ⟨text, htext, -⟩ := identifier_reader_eq_done_iff.mp hsubject
  obtain ⟨expiry, hexpiry, -⟩ := Reader.map_eq_done hexpiry
  rw [Json.Shape.natural_eq_done_iff Json.nestingLimit] at hexpiry
  -- The items that are validated come from the same places, but there is no third one.
  obtain ⟨start, _, behind, hstart, hread, hitemsNamed⟩ :=
    Slot.items_cons_eq_done_iff.mp hitemsNamed
  cases hfirst.symm.trans hstart
  obtain ⟨_, hread, -⟩ := Reader.map_eq_done hread
  cases (tolerated_flatClaim_of_text htext).symm.trans hread
  obtain ⟨start, _, behind, hstart, hread, hitemsNamed⟩ :=
    Slot.items_cons_eq_done_iff.mp hitemsNamed
  cases hsecond.symm.trans hstart
  obtain ⟨_, hread, -⟩ := Reader.map_eq_done hread
  cases (tolerated_flatClaim_of_number hexpiry).symm.trans hread
  obtain ⟨start, _, behind, hstart, -, -⟩ := Slot.items_cons_eq_done_iff.mp hitemsNamed
  cases (Reader.nextItem_of_closeList hclose _).symm.trans hstart

/-- What claims say that a token can be good for. -/
theorem declares_of_parsed {named : Bool} (hclaims : parsed claimsReader payload = .ok claims)
    (hnamed : parsed audienceNamed payload = .ok named) :
    ∃ members, Declares payload members claims.subject claims.expiry := by
  obtain ⟨rest, hclaims⟩ := parsed_eq_ok_iff.mp hclaims
  obtain ⟨left, hnamed⟩ := parsed_eq_ok_iff.mp hnamed
  obtain ⟨-, behind, hread, hend⟩ := Reader.whole_eq_done_iff.mp hclaims
  obtain ⟨-, behindNamed, hreadNamed, -⟩ := Reader.whole_eq_done_iff.mp hnamed
  obtain ⟨octet, inside, hpayload, hinside⟩ := Json.Shape.exists_of_byFirst hread
  split at hinside
  case isTrue hrecord =>
    subst hrecord
    obtain ⟨-, left, hmembers, hcloses⟩ :=
      (Reader.whole_record_eq_done_iff (if_pos rfl) hpayload).mp hclaims
    obtain ⟨members, hfound, hresult⟩ := (Slot.members_eq_done_iff tracks_claims).mp hmembers
    have hconsists : Consists Json.Skip.value payload members :=
      Json.consists_iff.mpr ⟨inside, left, hpayload, hfound, hcloses⟩
    exact ⟨members, declares_of_result hconsists hresult⟩
  case isFalse =>
    split at hinside
    case isTrue hlist =>
      subst hlist
      exact absurd hreadNamed (audienceNamed_of_list hpayload hread)
    case isFalse => exact absurd hinside (Reader.Fails.unexpected _).ne_done

/-! Claims that say nothing else. -/

/-- A record of these claims says them only once. -/
theorem Declares.unique {other : Identifier} {later : Nat}
    (hdeclares : Declares payload members user expiry)
    (hother : Declares payload members other later) : other = user ∧ later = expiry := by
  constructor
  · obtain ⟨span, text, hfilter, hspells, hread⟩ := hdeclares.subject
    obtain ⟨_, _, hfilterOther, hspellsOther, hreadOther⟩ := hother.subject
    cases hfilter.symm.trans hfilterOther
    cases hspells.symm.trans hspellsOther
    exact Except.ok.inj (hreadOther.symm.trans hread)
  · obtain ⟨span, hfilter, hspells⟩ := hdeclares.expiry
    obtain ⟨_, hfilterOther, hspellsOther⟩ := hother.expiry
    cases hfilter.symm.trans hfilterOther
    cases hspells.symm.trans hspellsOther
    rfl

/-- Of two members, one names the user and one the expiry. -/
theorem eq_or_eq_of_two {subject expiry : Span} (hlength : members.length = 2)
    (hsubject : members.filter (·.1 = "sub") = [("sub", subject)])
    (hexpiry : members.filter (·.1 = "exp") = [("exp", expiry)]) :
    members = [("sub", subject), ("exp", expiry)] ∨
      members = [("exp", expiry), ("sub", subject)] := by
  have hfirst := Json.mem_of_filter hsubject
  have hsecond := Json.mem_of_filter hexpiry
  have hnames : "exp" ≠ "sub" := by decide
  match members, hlength with
  | [one, two], _ =>
      simp only [List.mem_cons, List.not_mem_nil, or_false] at hfirst hsecond
      obtain rfl | rfl := hfirst
      · obtain hsame | rfl := hsecond
        · exact absurd (congrArg Prod.fst hsame) hnames
        · exact .inl rfl
      · obtain rfl | hsame := hsecond
        · exact .inr rfl
        · exact absurd (congrArg Prod.fst hsame) hnames

theorem tolerated_text {depth : Nat} {input rest : List UInt8} {text : String}
    (hdone : Value.read depth input = .done (.text text) rest) :
    tolerated (do let _ ← Json.Shape.optional Json.Shape.text) input = .done () rest := by
  rw [tolerated, Reader.bind_done (Json.Shape.optional_of_text hdone)]
  rfl

theorem parsed_of_members {α : Type} {reader : Reader α} {read : UInt8 → Reader α}
    {slots : List (Slot α)} {other : String → Reader (α → α)} {draft made : α}
    (hreader : reader = Json.Shape.byFirst read)
    (hread : read (ascii '\x7b') = Reader.inRecord (Slot.members slots other draft))
    (hconsists : Consists Json.Skip.value payload members)
    (hfits : ∀ member ∈ members, member.2.Fits (Slot.reader slots other member.1))
    (hresult : Slot.result slots other draft members = some made) :
    parsed reader payload = .ok made := by
  obtain ⟨inside, left, hpayload, hfound, hcloses⟩ := Json.consists_iff.mp hconsists
  have hmembers := Slot.means_members hfound hfits draft
  rw [hresult] at hmembers
  subst hreader
  exact parsed_eq_ok_iff.mpr
    ⟨[], (Reader.whole_record_eq_done_iff hread hpayload).mpr ⟨rfl, left, hmembers, hcloses⟩⟩

theorem Declares.nodup (hdeclares : Declares payload members user expiry)
    (hlength : members.length = 2) : (members.map (·.1)).Nodup := by
  obtain ⟨subject, _, hsubject, -, -⟩ := hdeclares.subject
  obtain ⟨time, htime, -⟩ := hdeclares.expiry
  obtain rfl | rfl := eq_or_eq_of_two hlength hsubject htime
  · change ["sub", "exp"].Nodup
    decide
  · change ["exp", "sub"].Nodup
    decide

theorem Declares.forall_mem (hdeclares : Declares payload members user expiry)
    (hlength : members.length = 2) {P : String × Span → Prop}
    (hsubject : ∀ span text, span.Spells (.text text) → Identifier.read text = .ok user →
      P ("sub", span))
    (hexpiry : ∀ span, span.Spells (.number (.whole expiry)) → P ("exp", span)) :
    ∀ member ∈ members, P member := by
  obtain ⟨subject, text, hfilter, htext, hread⟩ := hdeclares.subject
  obtain ⟨time, htime, hnumber⟩ := hdeclares.expiry
  have hfirst := hsubject subject text htext hread
  have hsecond := hexpiry time hnumber
  obtain rfl | rfl := eq_or_eq_of_two hlength hfilter htime
  · exact List.forall_mem_cons.mpr ⟨hfirst, List.forall_mem_singleton.mpr hsecond⟩
  · exact List.forall_mem_cons.mpr ⟨hsecond, List.forall_mem_singleton.mpr hfirst⟩

theorem Declares.parsed_claims (hdeclares : Declares payload members user expiry)
    (hlength : members.length = 2) : parsed claimsReader payload = .ok ⟨user, expiry⟩ := by
  have hmeaning : ∀ member ∈ members,
      (member.2.meaning (Slot.reader claimsSlots Slot.pass member.1)).isSome = true := by
    refine hdeclares.forall_mem hlength (fun span text htext hread => ?_) (fun span hnumber => ?_)
    · have hdone : Identifier.reader span.start = .done user span.behind :=
        identifier_reader_eq_done_iff.mpr ⟨text, htext, hread⟩
      have hmap : span.meaning (Slot.reader claimsSlots Slot.pass "sub") =
          (span.meaning Identifier.reader).map fun subject claims => { claims with subject } :=
        Span.meaning_map _
      rw [hmap, Span.meaning_of_done hdone]
      rfl
    · have hdone : Json.Shape.natural span.start = .done expiry span.behind :=
        (Json.Shape.natural_eq_done_iff Json.nestingLimit).mpr hnumber
      have hmap : span.meaning (Slot.reader claimsSlots Slot.pass "exp") =
          (span.meaning Json.Shape.natural).map fun expiry claims => { claims with expiry } :=
        Span.meaning_map _
      rw [hmap, Span.meaning_of_done hdone]
      rfl
  have hrequired : ∀ slot ∈ claimsSlots, slot.isRequired = true →
      slot.name ∈ members.map (·.1) := by
    obtain ⟨subject, _, hsubject, -, -⟩ := hdeclares.subject
    obtain ⟨time, htime, -⟩ := hdeclares.expiry
    intro slot hslot _
    simp only [claimsSlots, List.mem_cons, List.not_mem_nil, or_false] at hslot
    obtain rfl | rfl := hslot
    · exact List.mem_map_of_mem (Json.mem_of_filter hsubject)
    · exact List.mem_map_of_mem (Json.mem_of_filter htime)
  obtain ⟨made, hresult⟩ :=
    Slot.exists_result (hdeclares.nodup hlength) hmeaning hrequired ⟨.nil, 0⟩
  have hfits : ∀ member ∈ members,
      member.2.Fits (Slot.reader claimsSlots Slot.pass member.1) := by
    intro member hmem
    obtain ⟨passed, hpassed⟩ := hdeclares.consists.passes member hmem
    exact (tracks_claims member.1).fits hpassed
  obtain ⟨hsubject, hexpiry⟩ := hdeclares.unique (declares_of_result hdeclares.consists hresult)
  have hmade : made = ⟨user, expiry⟩ := by
    rw [← hsubject, ← hexpiry]
  rw [← hmade]
  exact parsed_of_members rfl (if_pos rfl) hdeclares.consists hfits hresult

theorem Declares.parsed_audience (hdeclares : Declares payload members user expiry)
    (hlength : members.length = 2) : parsed audienceNamed payload = .ok false := by
  have hdone : ∀ member ∈ members, Slot.reader audienceSlots Slot.pass member.1 member.2.start =
      .done id member.2.behind := by
    refine hdeclares.forall_mem hlength (fun span text htext _ => ?_) (fun span hnumber => ?_)
    · change (tolerated _ >>= fun _ => pure id) span.start = _
      rw [Reader.bind_done (tolerated_text htext)]
      rfl
    · change (tolerated _ >>= fun _ => pure id) span.start = _
      rw [Reader.bind_done (tolerated_flatClaim_of_number hnumber)]
      rfl
  have hmeaning : ∀ member ∈ members,
      (member.2.meaning (Slot.reader audienceSlots Slot.pass member.1)).isSome = true := by
    intro member hmem
    rw [Span.meaning_of_done (hdone member hmem)]
    rfl
  have hrequired : ∀ slot ∈ audienceSlots, slot.isRequired = true →
      slot.name ∈ members.map (·.1) := by
    intro slot hslot hrequired
    simp only [audienceSlots, List.mem_cons, List.not_mem_nil, or_false] at hslot
    obtain rfl | rfl | rfl | rfl | rfl := hslot
    all_goals cases hrequired
  obtain ⟨made, hresult⟩ := Slot.exists_result (hdeclares.nodup hlength) hmeaning hrequired false
  have hmade : made = false := by
    refine Slot.of_result (P := (· = false)) rfl (fun member hmem change hchange draft hdraft => ?_)
      hresult
    rw [Span.meaning_of_done (hdone member hmem)] at hchange
    cases hchange
    exact hdraft
  rw [← hmade]
  exact parsed_of_members rfl (if_pos rfl) hdeclares.consists
    (fun member hmem => Span.fits_of_done (hdone member hmem)) hresult

end Herald.Token
