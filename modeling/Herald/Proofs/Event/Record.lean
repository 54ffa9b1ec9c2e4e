import Herald.Proofs.Event.Grammar
import Herald.Proofs.Except
import Mathlib

/-!
Which texts of one record are read as an event, and as which one. The tag may stand anywhere among the
members, so the fields are only known once the whole record is read.
-/

namespace Herald.Event

open Json (Value named)

variable {members others : List (String × Value)} {kind : Kind} {event : Event}

def Rejected (payload : String) : Prop := ∃ fault, decode payload = .error fault

/-- The record is of this event: one tag, and every field of its kind. -/
structure SpelledBy (members : List (String × Value)) (event : Event) : Prop where
  tag : named tagName members = [.text event.kind.name]
  fields : List.Forall₂ (Field.Spelled members) event.kind.fields event.values

/-- The members that a record of this kind is read for. -/
def concerning (kind : Kind) (members : List (String × Value)) : List (String × Value) :=
  members.filter (·.1 ∈ tagName :: kind.fields.map Field.name)

/-- The kinds of events for everyone. -/
def forEveryone : List Kind := [.postCreated, .postDeleted, .commentAdded, .commentDeleted]

/-! Events from their field values. -/

theorem rejected_iff {payload : String} :
    Rejected payload ↔ ∀ event, decode payload ≠ .ok event := by
  rw [Rejected]
  cases decode payload with
  | ok read =>
      simp only [reduceCtorEq, exists_false, false_iff, ne_eq, not_forall, not_not]
      exact ⟨read, rfl⟩
  | error fault =>
      simp only [reduceCtorEq, ne_eq, not_false_eq_true, implies_true, iff_true]
      exact ⟨fault, rfl⟩

theorem ofValues?_eq_some_iff {values : List FieldValue} :
    ofValues? kind values = some event ↔ event.kind = kind ∧ event.values = values := by
  constructor
  · intro hevent
    unfold ofValues? at hevent
    split at hevent
    all_goals cases hevent
    all_goals exact ⟨rfl, rfl⟩
  · rintro ⟨rfl, rfl⟩
    exact ofValues?_values event

theorem toOption_ofContent_eq_some_iff {content : Content} :
    (ofContent kind content).toOption = some event ↔
      event.kind = kind ∧ content.values kind = .ok event.values := by
  rw [ofContent]
  cases hvalues : content.values kind with
  | error mismatch => simp only [bind, Except.bind, Except.toOption, reduceCtorEq, and_false]
  | ok values =>
      have hevent : ofValues? kind values = some event ↔ _ := ofValues?_eq_some_iff
      rw [Except.ok.injEq, eq_comm (a := values), ← hevent]
      simp only [bind, Except.bind]
      cases ofValues? kind values with
      | none => simp only [Except.toOption, reduceCtorEq]
      | some found => rfl

/-! The tag among the members. -/

/-- The members other than tags. -/
def untagged (members : List (String × Value)) : List (String × Value) :=
  members.filter (·.1 ≠ tagName)

theorem untagged_cons_tag (document : Value) (members : List (String × Value)) :
    untagged ((tagName, document) :: members) = untagged members := by
  rw [untagged, List.filter_cons_of_neg (by simp)]
  rfl

theorem untagged_cons_of_ne {name : String} (hname : name ≠ tagName) (document : Value)
    (members : List (String × Value)) :
    untagged ((name, document) :: members) = (name, document) :: untagged members := by
  rw [untagged, List.filter_cons_of_pos (by simpa using hname)]
  rfl

theorem named_untagged {name : String} (hname : name ≠ tagName) (members : List (String × Value)) :
    named name (untagged members) = named name members :=
  Json.named_filter (fun _ => by simpa using hname) members

theorem content?_foldlM_of_some {found : Kind} {gathered : List (String × Value)}
    {content : Content} :
    (members.foldlM Tagged.advance ⟨some found, gathered⟩).bind Tagged.content? =
        some (kind, content) ↔
      named tagName members = [] ∧ found = kind ∧
        content = .members (gathered.reverse ++ untagged members) := by
  induction members generalizing gathered with
  | nil =>
      change some (found, Content.members gathered.reverse) = some (kind, content) ↔ _
      rw [untagged, List.filter_nil, List.append_nil, Option.some.injEq, Prod.mk.injEq,
        eq_comm (a := content)]
      exact (and_iff_right rfl).symm
  | cons member members ih =>
      obtain ⟨name, document⟩ := member
      rw [List.foldlM_cons, Tagged.advance]
      by_cases hname : name = tagName
      · subst hname
        rw [if_pos rfl, Json.named_cons_self]
        simp only [bind, Option.bind, reduceCtorEq, false_and]
      · rw [if_neg hname, Json.named_cons_of_ne hname, untagged_cons_of_ne hname]
        change (members.foldlM Tagged.advance ⟨some found, (name, document) :: gathered⟩).bind _ = _ ↔ _
        rw [ih, List.reverse_cons, List.append_assoc, List.singleton_append]

theorem content?_foldlM_of_none {gathered : List (String × Value)} {content : Content} :
    (members.foldlM Tagged.advance ⟨none, gathered⟩).bind Tagged.content? = some (kind, content) ↔
      named tagName members = [.text kind.name] ∧
        content = .members (gathered.reverse ++ untagged members) := by
  induction members generalizing gathered with
  | nil =>
      change none = some (kind, content) ↔ [] = _ ∧ _
      simp only [reduceCtorEq, false_and]
  | cons member members ih =>
      obtain ⟨name, document⟩ := member
      rw [List.foldlM_cons, Tagged.advance]
      by_cases hname : name = tagName
      · subst hname
        rw [if_pos rfl, Json.named_cons_self, untagged_cons_tag, List.cons.injEq,
          ← Kind.ofDocument?_eq_some_iff]
        cases Kind.ofDocument? document with
        | none => simp only [Option.map, bind, Option.bind, reduceCtorEq, false_and]
        | some found =>
            change (members.foldlM Tagged.advance ⟨some found, gathered⟩).bind _ = _ ↔ _
            rw [content?_foldlM_of_some, Option.some.injEq, ← and_assoc,
              and_comm (a := found = kind)]
      · rw [if_neg hname, Json.named_cons_of_ne hname, untagged_cons_of_ne hname]
        change (members.foldlM Tagged.advance ⟨none, (name, document) :: gathered⟩).bind _ = _ ↔ _
        rw [ih, List.reverse_cons, List.append_assoc, List.singleton_append]

theorem tagged?_record_eq_some_iff {content : Content} :
    tagged? (.record members) = some (kind, content) ↔
      named tagName members = [.text kind.name] ∧ content = .members (untagged members) :=
  content?_foldlM_of_none

/-! Records of events. -/

theorem ne_tagName_of_mem_fields {field : Field} (hfield : field ∈ kind.fields) :
    field.name ≠ tagName := by
  intro hname
  exact tagName_notMem_fields kind (hname ▸ List.mem_map_of_mem hfield)

theorem SpelledBy.kind_eq (hspelled : SpelledBy members event)
    (htag : named tagName members = [.text kind.name]) : event.kind = kind := by
  have hname : Value.text event.kind.name = .text kind.name := by
    rw [← List.singleton_inj, ← hspelled.tag, htag]
  have hkind := Kind.ofDocument?_eq_some_iff.mpr hname
  rwa [Kind.ofDocument?, Kind.ofName?_name, Option.some.injEq] at hkind

theorem SpelledBy.congr (hspelled : SpelledBy members event)
    (hnamed : ∀ name ∈ tagName :: event.kind.fields.map Field.name,
      (named name members).Perm (named name others)) : SpelledBy others event := by
  refine ⟨?_, ?_⟩
  · have htag := hnamed tagName List.mem_cons_self
    rw [hspelled.tag] at htag
    exact List.perm_singleton.mp htag.symm
  · refine (forall₂_congr_fields fun field hfield value => ?_).mp hspelled.fields
    have hperm := hnamed field.name (List.mem_cons_of_mem _ (List.mem_map_of_mem hfield))
    exact Field.spelled_congr hperm value

theorem ofDocument?_record_eq_some_iff :
    ofDocument? (.record members) = some event ↔ SpelledBy members event := by
  have hcongr : ∀ field ∈ event.kind.fields, ∀ value,
      field.Spelled (untagged members) value ↔ field.Spelled members value := by
    intro field hfield value
    have hnamed := named_untagged (ne_tagName_of_mem_fields hfield) members
    exact Field.spelled_congr (.of_eq hnamed) value
  have hvalues : ofMembers event.kind.fields (untagged members) = .ok event.values ↔
      List.Forall₂ (Field.Spelled members) event.kind.fields event.values := by
    rw [ofMembers_eq_ok_iff (nodup_fields event.kind)]
    exact forall₂_congr_fields hcongr
  rw [ofDocument?, Option.bind_eq_some_iff]
  constructor
  · rintro ⟨⟨kind, content⟩, htagged, hcontent⟩
    obtain ⟨hkind, hread⟩ := toOption_ofContent_eq_some_iff.mp hcontent
    obtain ⟨htag, rfl⟩ := tagged?_record_eq_some_iff.mp htagged
    subst hkind
    exact ⟨htag, hvalues.mp hread⟩
  · intro hspelled
    refine ⟨(event.kind, .members (untagged members)), ?_, ?_⟩
    · exact tagged?_record_eq_some_iff.mpr ⟨hspelled.tag, rfl⟩
    · exact toOption_ofContent_eq_some_iff.mpr ⟨rfl, hvalues.mpr hspelled.fields⟩

theorem named_concerning {name : String} (hname : name ∈ tagName :: kind.fields.map Field.name)
    (members : List (String × Value)) : named name (concerning kind members) = named name members :=
  Json.named_filter (fun _ => decide_eq_true hname) members

theorem decode_eq_ok_iff_spelledBy {payload : String}
    (hspells : Json.Spells payload (.record members)) :
    decode payload = .ok event ↔ SpelledBy members event := by
  rw [← Except.toOption_eq_some_iff, toOption_decode hspells]
  exact ofDocument?_record_eq_some_iff

/-! Records of no event. -/

theorem type_eq_nobody_iff {field : Field} (hfield : field ∈ kind.fields) :
    field.type = .nobody ↔ kind ∈ forEveryone ∧ field.name = "recipient" := by
  revert field
  cases kind <;> decide

theorem recipient_mem_fields (hkind : kind ∈ forEveryone) :
    ⟨"recipient", .nobody⟩ ∈ kind.fields := by
  revert kind
  decide

/-- A record whose tag names a kind is no event if any field of that kind is not in it. -/
theorem rejected_of_not_spelled {payload : String}
    (hspells : Json.Spells payload (.record members))
    (htag : named tagName members = [.text kind.name]) {field : Field} (hfield : field ∈ kind.fields)
    (hfails : ∀ value, ¬ field.Spelled members value) : Rejected payload := by
  refine rejected_iff.mpr fun event hevent => ?_
  have hspelled := (decode_eq_ok_iff_spelledBy hspells).mp hevent
  obtain rfl := hspelled.kind_eq htag
  obtain ⟨value, hvalue⟩ := exists_of_forall₂_fields hspelled.fields hfield
  exact hfails value hvalue

/--
A text of one record is read as an event just if the record spells the event. So only the members for
its kind matter, in any order, and a record is rejected if it has no tag of a kind, or more than one
tag, or a field of its kind twice or never, or if it names a recipient of what is for everyone.
-/
theorem decode_record {payload : String} (hspells : Json.Spells payload (.record members)) :
    (∀ event, decode payload = .ok event ↔ SpelledBy members event) ∧
      (∀ other others event, Json.Spells other (.record others) →
        (concerning event.kind members).Perm (concerning event.kind others) →
          (decode payload = .ok event ↔ decode other = .ok event)) ∧
      ((∀ kind : Kind, named tagName members ≠ [.text kind.name]) → Rejected payload) ∧
      ∀ kind : Kind, named tagName members = [.text kind.name] →
        (∀ field ∈ kind.fields, 2 ≤ (named field.name members).length → Rejected payload) ∧
          (∀ field ∈ kind.fields, ¬ (kind ∈ forEveryone ∧ field.name = "recipient") →
            named field.name members = [] → Rejected payload) ∧
          (kind ∈ forEveryone → (∃ document ∈ named "recipient" members, document ≠ .null) →
            Rejected payload) := by
  refine ⟨fun event => decode_eq_ok_iff_spelledBy hspells, ?_, ?_, ?_⟩
  · intro other others event hother hperm
    have hnamed : ∀ name ∈ tagName :: event.kind.fields.map Field.name,
        (named name members).Perm (named name others) := by
      intro name hname
      rw [← named_concerning hname members, ← named_concerning hname others]
      exact (hperm.filter _).map _
    rw [decode_eq_ok_iff_spelledBy hspells, decode_eq_ok_iff_spelledBy hother]
    exact ⟨fun hspelled => hspelled.congr hnamed,
      fun hspelled => hspelled.congr fun name hname => (hnamed name hname).symm⟩
  · intro htag
    refine rejected_iff.mpr fun event hevent => ?_
    exact htag event.kind ((decode_eq_ok_iff_spelledBy hspells).mp hevent).tag
  · intro kind htag
    refine ⟨fun field hfield hcount => ?_, fun field hfield hneeded hnone => ?_,
      fun hkind hrecipient => ?_⟩
    · refine rejected_of_not_spelled hspells htag hfield fun value hvalue => ?_
      have hlength := hvalue.length_named_le
      omega
    · refine rejected_of_not_spelled hspells htag hfield fun value hvalue => ?_
      exact hneeded ((type_eq_nobody_iff hfield).mp (hvalue.type_eq_nobody hnone))
    · obtain ⟨document, hmem, hdocument⟩ := hrecipient
      refine rejected_of_not_spelled hspells htag (recipient_mem_fields hkind) fun value hvalue => ?_
      exact hdocument (hvalue.eq_null rfl hmem)

/-! The tag comes last, behind members of other kinds, and nobody is left out. -/

def lateTag : List (String × Value) :=
  [("post_id", .text "00000000-0000-0000-0000-000000000007"), ("reason", .list [.null]),
    ("reason", .record []), ("occurred_at", .text "1970-01-01T00:00:00Z"),
    ("comment_id", .text "00000000000000000000000000000008"), ("type", .text "COMMENT_ADDED")]

def lateTagText : String :=
  " \x7b\"post_id\": \"00000000-0000-0000-0000-000000000007\", \"reason\": [null], " ++
    "\"reason\": \x7b\x7d, \"occurred_at\": \"1970-01-01T00:00:00Z\", " ++
    "\"comment_id\": \"00000000000000000000000000000008\", \"type\": \"COMMENT_ADDED\"\x7d "

set_option maxRecDepth 20000 in
theorem decode_record_of_late_tag :
    Json.Spells lateTagText (.record lateTag) ∧
      decode lateTagText = .ok (.commentAdded (.ofNat 7) (.ofNat 8) .epoch) := by
  have hspells : Json.Spells lateTagText (.record lateTag) := by
    unfold Json.Spells
    cbv
  refine ⟨hspells, ((decode_record hspells).1 _).mpr ⟨rfl, ?_⟩⟩
  refine .cons (.nobody (Nat.zero_le 1) rfl) (.cons (.once (by decide) rfl rfl)
    (.cons (.once (by decide) rfl rfl) (.cons (.once (by decide) rfl ?_) .nil)))
  cbv

end Herald.Event
