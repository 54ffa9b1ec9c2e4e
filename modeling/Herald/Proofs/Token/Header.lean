import Herald.Proofs.Json.Fields
import Herald.Proofs.Json.Shapes
import Herald.Proofs.Token.Form
import Mathlib.Data.List.Nodup

/-!
What the header of a token says. Exactly one member of its record names the algorithm. A header of
texts is read whatever else they say, unless one stands where a key or a list is expected.
-/

namespace Herald.Token

open Json (Consists Reader Slot Span Tracks Value)
open Text (ascii)

/-- The values in a header are one level below it. -/
def headerDepth : Nat := Json.nestingLimit - 1

/-- The header is a record with one member for the algorithm, which it names. -/
def Names (header : List UInt8) (algorithm : Algorithm) : Prop :=
  ∃ members span, Consists (Value.read headerDepth) header members ∧
    members.filter (·.1 = "alg") = [("alg", span)] ∧
    (span.Spells (.text algorithm.name) ∨ span.Spells (.record [(algorithm.name, .null)]))

/-- The header is a record of texts with different names, one of which names the algorithm. -/
structure Plain (header : List UInt8) (members : List (String × Span)) (algorithm : Algorithm) :
    Prop where
  consists : Consists (Value.read headerDepth) header members
  nodup : (members.map (·.1)).Nodup
  texts : ∀ member ∈ members, ∃ text, member.2.Spells (.text text)
  fields : ∀ member ∈ members, member.1 ∉ "jwk" :: textListFields
  algorithm : ∃ span, ("alg", span) ∈ members ∧ span.Spells (.text algorithm.name)

variable {header inside : List UInt8} {members : List (String × Span)} {algorithm : Algorithm}
  {found draft : Header}

/-! The slots of a header. -/

def algorithmSlot : Slot Header :=
  .required "alg" (Json.Shape.named Algorithm.all Algorithm.name)
    fun algorithm header => { header with algorithm }

/-- A slot that is read and then left. -/
def passedSlot {α : Type} (name : String) (read : Reader α) : Slot Header :=
  .optional name (Json.Shape.optional read) fun _ header => header

theorem mem_headerSlots {slot : Slot Header} (hslot : slot ∈ headerSlots) :
    slot = algorithmSlot ∨ slot = passedSlot "jwk" (Value.read headerDepth) ∨
      (∃ name ∈ textFields, slot = passedSlot name Json.Shape.text) ∨
      ∃ name ∈ textListFields, slot = passedSlot name (Json.Shape.list Json.Shape.text) := by
  rw [headerSlots, List.cons_append, List.cons_append, List.mem_cons, List.mem_cons,
    List.mem_append, List.mem_map, List.mem_map] at hslot
  obtain rfl | rfl | ⟨name, hname, rfl⟩ | ⟨name, hname, rfl⟩ := hslot
  · exact .inl rfl
  · exact .inr (.inl rfl)
  · exact .inr (.inr (.inl ⟨name, hname, rfl⟩))
  · exact .inr (.inr (.inr ⟨name, hname, rfl⟩))

theorem find?_algorithm : headerSlots.find? (·.name = "alg") = some algorithmSlot := rfl

theorem tracks_text (depth : Nat) : Tracks (Value.read depth) Json.Shape.text :=
  .textWith depth "a string" .ok

theorem tracks_texts (depth : Nat) :
    Tracks (Value.read (depth + 1)) (Json.Shape.list Json.Shape.text) := by
  have htext : Json.Agrees (Value.read depth) Json.Shape.text (Value.checked? .ok) :=
    ⟨.textWith depth "a string" .ok, tracks_text depth⟩
  exact htext.list.tracks

theorem tracks_passed {α : Type} {read : Reader α} (htracks : Tracks (Value.read headerDepth) read)
    (name : String) : Tracks (Value.read headerDepth) (passedSlot name read).read :=
  htracks.optional.map _

theorem tracks_header (name : String) :
    Tracks (Value.read headerDepth) (Slot.reader headerSlots keepOther name) := by
  refine Slot.tracks_reader (fun slot hslot => ?_) (fun _ => ?_) name
  · obtain rfl | rfl | ⟨name, -, rfl⟩ | ⟨name, -, rfl⟩ := mem_headerSlots hslot
    · exact (Tracks.variant (Json.nestingLimit - 2) _).map _
    · exact tracks_passed (.refl _) "jwk"
    · exact tracks_passed (tracks_text headerDepth) name
    · exact tracks_passed (tracks_texts (Json.nestingLimit - 2)) name
  · exact (Tracks.refl (Value.read headerDepth)).map _

theorem exists_of_meaning_passed {α : Type} {read : Reader α} {name : String} {span : Span}
    {change : Header → Header} (hchange : span.meaning (passedSlot name read).read = some change) :
    change = fun header => header := by
  have hrequired : span.meaning (Slot.required name (Json.Shape.optional read)
      fun _ header => header).read = some change := hchange
  obtain ⟨_, -, rfl⟩ := Slot.exists_write_of_meaning hrequired
  rfl

/-- A member that is no field is added to the others. -/
theorem exists_of_meaning_keepOther {name : String} {span : Span} {change : Header → Header}
    (hchange : span.meaning (keepOther name) = some change) :
    ∃ value, span.meaning (Value.read headerDepth) = some value ∧
      change = fun header => { header with others := header.others ++ [value] } := by
  have hmap : span.meaning (keepOther name) = (span.meaning (Value.read headerDepth)).map
      fun value header => { header with others := header.others ++ [value] } :=
    Span.meaning_map _
  rw [hmap] at hchange
  obtain ⟨value, hvalue, rfl⟩ := Option.map_eq_some_iff.mp hchange
  exact ⟨value, hvalue, rfl⟩

theorem keeps_algorithm : Slot.Keeps headerSlots keepOther "alg" (·.algorithm) := by
  refine Slot.keeps_of_slots (fun slot hslot hname span change hchange draft => ?_)
    (fun another span change hchange draft => ?_)
  · obtain rfl | rfl | ⟨name, -, rfl⟩ | ⟨name, -, rfl⟩ := mem_headerSlots hslot
    · exact absurd rfl hname
    · rw [exists_of_meaning_passed hchange]
    · rw [exists_of_meaning_passed hchange]
    · rw [exists_of_meaning_passed hchange]
  · obtain ⟨value, -, rfl⟩ := exists_of_meaning_keepOther hchange
    rfl

/-! The algorithm. -/

theorem find?_name (algorithm : Algorithm) :
    Algorithm.all.find? (·.name = algorithm.name) = some algorithm := by
  cases algorithm <;> rfl

theorem named_of_text {input rest : List UInt8}
    (hname : Value.read Json.nestingLimit input = .done (.text algorithm.name) rest) :
    Json.Shape.named Algorithm.all Algorithm.name input = .done algorithm rest := by
  apply Json.Shape.variant_of_text hname
  rw [find?_name]

theorem spells_of_named {span : Span}
    (hdone : Json.Shape.named Algorithm.all Algorithm.name span.start =
      .done algorithm span.behind) :
    span.Spells (.text algorithm.name) ∨ span.Spells (.record [(algorithm.name, .null)]) := by
  obtain ⟨name, hcheck, hread⟩ := Json.Shape.read_of_variant (Json.nestingLimit - 1) hdone
  have hname : name = algorithm.name := by
    cases hfound : Algorithm.all.find? (·.name = name) with
    | none =>
        rw [hfound] at hcheck
        cases hcheck
    | some found =>
        rw [hfound] at hcheck
        cases hcheck
        have hname : algorithm.name = name := by simpa using List.find?_some hfound
        exact hname.symm
  subst hname
  exact hread

/-- The algorithm that the members of a header lead to is the one that a member names. -/
theorem spells_of_result (hconsists : Consists (Value.read headerDepth) header members)
    (hresult : Slot.result headerSlots keepOther draft members = some found) :
    ∃ span, members.filter (·.1 = "alg") = [("alg", span)] ∧
      Json.Shape.named Algorithm.all Algorithm.name span.start =
        .done found.algorithm span.behind := by
  obtain ⟨span, change, before, hfilter, hchange, halgorithm⟩ :=
    Slot.filter_of_required find?_algorithm rfl keeps_algorithm hresult
  obtain ⟨algorithm, hmeaning, rfl⟩ := Slot.exists_write_of_meaning hchange
  have hread := hconsists.done_of_meaning (Tracks.variant (Json.nestingLimit - 2) _)
    (Json.mem_of_filter hfilter) hmeaning
  refine ⟨span, hfilter, ?_⟩
  rw [show found.algorithm = algorithm from halgorithm]
  exact hread

/-! Reading a header. -/

def headerInside : Reader Header := do
  let header ← Slot.members headerSlots keepOther ⟨.hs256, []⟩
  Json.Shape.checked (onlyTexts header.others)
  pure header

theorem headerInside_eq_done_iff {left : List UInt8} :
    headerInside inside = .done found left ↔
      Slot.members headerSlots keepOther ⟨.hs256, []⟩ inside = .done found left ∧
        onlyTexts found.others = .ok () := by
  constructor
  · intro hdone
    obtain ⟨read, between, hread, hdone⟩ := Reader.bind_eq_done hdone
    obtain ⟨_, after, hchecked, hpure⟩ := Reader.bind_eq_done hdone
    cases hpure
    obtain rfl := Json.Shape.idle_checked _ _ _ _ hchecked
    refine ⟨hread, ?_⟩
    cases htexts : onlyTexts found.others with
    | ok _ => rfl
    | error mismatch =>
        rw [htexts] at hchecked
        cases hchecked
  · rintro ⟨hread, htexts⟩
    rw [headerInside, Reader.bind_done hread, htexts]
    rfl

theorem parsed_header_iff :
    parsed headerReader header = .ok found ↔
      ∃ members, Consists (Value.read headerDepth) header members ∧
        Slot.result headerSlots keepOther ⟨.hs256, []⟩ members = some found ∧
        onlyTexts found.others = .ok () := by
  have hreader : headerReader = Json.Shape.byFirst fun octet =>
      if octet = ascii '\x7b' then Reader.inRecord headerInside
      else Json.Shape.unexpected "struct Header" := rfl
  rw [parsed_eq_ok_iff, hreader]
  constructor
  · rintro ⟨rest, hdone⟩
    obtain ⟨-, inside, left, hheader, hinside, hcloses⟩ :=
      Reader.whole_only_record_eq_done_iff.mp hdone
    obtain ⟨hmembers, htexts⟩ := headerInside_eq_done_iff.mp hinside
    obtain ⟨members, hfound, hresult⟩ := (Slot.members_eq_done_iff tracks_header).mp hmembers
    exact ⟨members, Json.consists_iff.mpr ⟨inside, left, hheader, hfound, hcloses⟩, hresult, htexts⟩
  · rintro ⟨members, hconsists, hresult, htexts⟩
    obtain ⟨inside, left, hheader, hfound, hcloses⟩ := Json.consists_iff.mp hconsists
    have hmembers := (Slot.members_eq_done_iff tracks_header).mpr ⟨members, hfound, hresult⟩
    have hinside := headerInside_eq_done_iff.mpr ⟨hmembers, htexts⟩
    exact ⟨[], Reader.whole_only_record_eq_done_iff.mpr
      ⟨rfl, inside, left, hheader, hinside, hcloses⟩⟩

/-- A header that is read names its algorithm. -/
theorem names_of_parsed (hheader : parsed headerReader header = .ok found) :
    Names header found.algorithm := by
  obtain ⟨members, hconsists, hresult, -⟩ := parsed_header_iff.mp hheader
  obtain ⟨span, hfilter, hread⟩ := spells_of_result hconsists hresult
  exact ⟨members, span, hconsists, hfilter, spells_of_named hread⟩

/-! Headers of texts. -/

theorem onlyTexts_of_forall {values : List Value}
    (hvalues : ∀ value ∈ values, ∃ text, value = .text text) : onlyTexts values = .ok () := by
  induction values with
  | nil => rfl
  | cons value values ih =>
      rw [List.forall_mem_cons] at hvalues
      obtain ⟨⟨text, rfl⟩, hvalues⟩ := hvalues
      exact ih hvalues

/-- A text where no key or list is expected is read. -/
theorem isSome_meaning_of_text {name text : String} {span : Span}
    (hspells : span.Spells (.text text)) (hname : name ∉ "jwk" :: textListFields)
    (halgorithm : name = "alg" → text = algorithm.name) :
    (span.meaning (Slot.reader headerSlots keepOther name)).isSome = true := by
  rw [Slot.reader]
  cases hslot : headerSlots.find? (·.name = name) with
  | none =>
      change (span.meaning (keepOther name)).isSome = true
      rw [keepOther, Span.meaning_map, Option.isSome_map,
        Span.meaning_of_done (Value.read_text hspells _)]
      rfl
  | some slot =>
      have hslotName : slot.name = name := by simpa using List.find?_some hslot
      change (span.meaning slot.read).isSome = true
      obtain rfl | rfl | ⟨field, -, rfl⟩ | ⟨field, hlist, rfl⟩ :=
        mem_headerSlots (List.mem_of_find?_eq_some hslot)
      · rw [halgorithm hslotName.symm] at hspells
        rw [algorithmSlot, Slot.meaning_required, Span.meaning_of_done (named_of_text hspells)]
        rfl
      · exact absurd (hslotName ▸ List.mem_cons_self) hname
      · change (span.meaning (Slot.required field (Json.Shape.optional Json.Shape.text)
          fun _ header => header).read).isSome = true
        rw [Slot.meaning_required, Span.meaning_of_done (Json.Shape.optional_of_text hspells)]
        rfl
      · exact absurd (hslotName ▸ List.mem_cons_of_mem _ hlist) hname

/-- Whatever a plain header adds to the others is a text. -/
theorem Plain.texts_of_result (hplain : Plain header members algorithm)
    (hresult : Slot.result headerSlots keepOther ⟨.hs256, []⟩ members = some found) :
    ∀ value ∈ found.others, ∃ text, value = .text text := by
  refine Slot.of_result (P := fun header => ∀ value ∈ header.others, ∃ text, value = .text text)
    nofun (fun member hmem change hchange draft hdraft => ?_) hresult
  rw [Slot.reader] at hchange
  cases hslot : headerSlots.find? (·.name = member.1) with
  | none =>
      rw [hslot] at hchange
      obtain ⟨value, hvalue, rfl⟩ := exists_of_meaning_keepOther hchange
      obtain ⟨text, htext⟩ := hplain.texts member hmem
      rw [Span.meaning_of_done (Value.read_text htext headerDepth)] at hvalue
      cases hvalue
      intro value hvalue
      obtain hvalue | hvalue := List.mem_append.mp hvalue
      · exact hdraft value hvalue
      · exact ⟨text, List.mem_singleton.mp hvalue⟩
  | some slot =>
      rw [hslot] at hchange
      obtain rfl | rfl | ⟨name, -, rfl⟩ | ⟨name, -, rfl⟩ :=
        mem_headerSlots (List.mem_of_find?_eq_some hslot)
      · obtain ⟨_, -, rfl⟩ := Slot.exists_write_of_meaning hchange
        exact hdraft
      · rwa [exists_of_meaning_passed hchange]
      · rwa [exists_of_meaning_passed hchange]
      · rwa [exists_of_meaning_passed hchange]

/-- A plain header is read, and for the algorithm that it names. -/
theorem Plain.exists_parsed (hplain : Plain header members algorithm) :
    ∃ found, parsed headerReader header = .ok found ∧ found.algorithm = algorithm := by
  obtain ⟨span, hmem, hspells⟩ := hplain.algorithm
  have hunique {other : Span} (hother : ("alg", other) ∈ members) : other = span :=
    congrArg Prod.snd (List.inj_on_of_nodup_map hplain.nodup hother hmem rfl)
  have hmeaning : ∀ member ∈ members,
      (member.2.meaning (Slot.reader headerSlots keepOther member.1)).isSome = true := by
    rintro ⟨name, other⟩ hother
    obtain ⟨text, htext⟩ := hplain.texts _ hother
    have halgorithm : name = "alg" → text = algorithm.name := by
      rintro rfl
      obtain rfl := hunique hother
      cases hspells.symm.trans htext
      rfl
    exact isSome_meaning_of_text htext (hplain.fields _ hother) halgorithm
  have hrequired : ∀ slot ∈ headerSlots, slot.isRequired = true →
      slot.name ∈ members.map (·.1) := by
    intro slot hslot hrequired
    obtain rfl | rfl | ⟨name, -, rfl⟩ | ⟨name, -, rfl⟩ := mem_headerSlots hslot
    · exact List.mem_map_of_mem hmem
    all_goals cases hrequired
  obtain ⟨found, hresult⟩ :=
    Slot.exists_result hplain.nodup hmeaning hrequired ⟨.hs256, []⟩
  refine ⟨found, parsed_header_iff.mpr ⟨members, hplain.consists, hresult,
    onlyTexts_of_forall (hplain.texts_of_result hresult)⟩, ?_⟩
  obtain ⟨other, hfilter, hread⟩ := spells_of_result hplain.consists hresult
  obtain rfl := hunique (Json.mem_of_filter hfilter)
  have hnamed := named_of_text hspells
  cases hread.symm.trans hnamed
  rfl

end Herald.Token
