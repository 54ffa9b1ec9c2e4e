import Herald.Proofs.Event.Document
import Herald.Proofs.Event.RoundTrip
import Mathlib.Data.List.Forall2

/-!
Which records are events. A record is one if its tag names a kind and the fields of that kind have
their values in it, each under its name and only once; a recipient of everyone may be left out. Nothing
else about the record matters: neither the order of its members nor what other members it has.
-/

namespace Herald

open Json (Mismatch Value)

/-- The values of all members with a name. -/
def Json.named (name : String) (members : List (String × Value)) : List Value :=
  (members.filter (·.1 = name)).map Prod.snd

open Json (named)

variable {members others : List (String × Value)} {fields : List Field} {name : String}

/-- What two readings in turn give came through both. -/
theorem Json.bind_eq_ok_iff {α β : Type} {reading : Except Mismatch α}
    {next : α → Except Mismatch β} {result : β} :
    reading >>= next = .ok result ↔ ∃ value, reading = .ok value ∧ next value = .ok result := by
  cases reading with
  | error mismatch => simp only [bind, Except.bind, reduceCtorEq, false_and, exists_false]
  | ok value => simp only [bind, Except.bind, Except.ok.injEq, exists_eq_left']

theorem Json.named_cons_self (name : String) (document : Value) (members : List (String × Value)) :
    named name ((name, document) :: members) = document :: named name members := by
  rw [named, List.filter_cons_of_pos (by simp)]
  rfl

theorem Json.named_cons_of_ne {first : String} (hne : first ≠ name) (document : Value)
    (members : List (String × Value)) :
    named name ((first, document) :: members) = named name members := by
  rw [named, List.filter_cons_of_neg (by simpa using hne)]
  rfl

theorem Json.named_filter {keeps : String × Value → Bool}
    (hkeeps : ∀ document, keeps (name, document) = true) (members : List (String × Value)) :
    named name (members.filter keeps) = named name members := by
  rw [named, List.filter_filter, named]
  congr 2
  funext member
  by_cases hname : member.1 = name
  · obtain ⟨_, document⟩ := member
    cases hname
    simp only [hkeeps, Bool.and_true]
  · simp only [decide_eq_false hname, Bool.false_and]

/-! Fields. -/

/-- What is known of a field before some members and after them; their values under its name. -/
inductive Field.Gathers (field : Field) :
    Option FieldValue → List Value → Option FieldValue → Prop
  | kept (earlier : Option FieldValue) : Gathers field earlier [] earlier
  | taken {document : Value} {value : FieldValue} (hread : field.type.read document = .ok value) :
      Gathers field none [document] (some value)

theorem Field.Gathers.unique {field : Field} {earlier known other : Option FieldValue}
    {documents : List Value} (hknown : field.Gathers earlier documents known)
    (hother : field.Gathers earlier documents other) : known = other := by
  cases hknown with
  | kept =>
      cases hother with
      | kept => rfl
  | taken hread =>
      cases hother with
      | taken hagain =>
          rw [hread] at hagain
          cases hagain
          rfl

/-- The members give a field this value. -/
inductive Field.Spelled (members : List (String × Value)) : Field → FieldValue → Prop
  | once {field : Field} {document : Value} {value : FieldValue} (htype : field.type ≠ .nobody)
      (hnamed : named field.name members = [document])
      (hread : field.type.read document = .ok value) : Spelled members field value
  /-- Nobody in particular is null, at most once. -/
  | nobody {name : String} {count : Nat} (hcount : count ≤ 1)
      (hnamed : named name members = List.replicate count .null) :
      Spelled members ⟨name, .nobody⟩ .nobody

theorem FieldType.read_nobody_eq_ok {document : Value} {value : FieldValue} :
    FieldType.nobody.read document = .ok value ↔ document = .null ∧ value = .nobody := by
  constructor
  · intro hread
    cases document with
    | null =>
        cases hread
        exact ⟨rfl, rfl⟩
    | text content =>
        rw [FieldType.read, FieldType.readNobody] at hread
        · cases hid : FieldType.readId (.text content) with
          | ok identifier =>
              rw [hid] at hread
              cases hread
          | error mismatch =>
              rw [hid] at hread
              cases hread
        · intro hnull
          cases hnull
    | _ => cases hread
  · rintro ⟨rfl, rfl⟩
    rfl

/-- A field is spelled if members alone say what is known of it, or it may be left out. -/
theorem Field.spelled_iff {field : Field} {value : FieldValue} :
    field.Spelled members value ↔ ∃ known, field.Gathers none (named field.name members) known ∧
      known.or field.type.absent? = some value := by
  constructor
  · intro hspelled
    cases hspelled with
    | once htype hnamed hread => exact ⟨some value, hnamed ▸ .taken hread, rfl⟩
    | @nobody name count hcount hnamed =>
        obtain rfl | rfl : count = 0 ∨ count = 1 := by omega
        · exact ⟨none, hnamed ▸ .kept none, rfl⟩
        · exact ⟨some .nobody, hnamed ▸ .taken rfl, rfl⟩
  · rintro ⟨known, hgathers, hknown⟩
    obtain ⟨name, type⟩ := field
    generalize hnamed : named name members = documents at hgathers
    cases hgathers with
    | kept =>
        cases type with
        | nobody =>
            cases hknown
            exact .nobody (Nat.zero_le 1) hnamed
        | _ => cases hknown
    | @taken document found hread =>
        cases hknown
        cases type with
        | nobody =>
            obtain ⟨rfl, rfl⟩ := FieldType.read_nobody_eq_ok.mp hread
            exact .nobody (Nat.le_refl 1) hnamed
        | _ => exact .once (by simp) hnamed hread

theorem Field.Spelled.congr {field : Field} {value : FieldValue}
    (hspelled : field.Spelled members value)
    (hnamed : (named field.name members).Perm (named field.name others)) :
    field.Spelled others value := by
  cases hspelled with
  | once htype honce hread =>
      rw [honce] at hnamed
      exact .once htype (List.perm_singleton.mp hnamed.symm) hread
  | nobody hcount hnobody =>
      rw [hnobody] at hnamed
      exact .nobody hcount (List.perm_replicate.mp hnamed.symm)

theorem Field.spelled_congr {field : Field}
    (hnamed : (named field.name members).Perm (named field.name others)) (value : FieldValue) :
    field.Spelled members value ↔ field.Spelled others value :=
  ⟨fun hspelled => hspelled.congr hnamed, fun hspelled => hspelled.congr hnamed.symm⟩

theorem Field.Spelled.length_named_le {field : Field} {value : FieldValue}
    (hspelled : field.Spelled members value) : (named field.name members).length ≤ 1 := by
  cases hspelled with
  | once htype honce hread => rw [honce, List.length_singleton]
  | nobody hcount hnobody => rwa [hnobody, List.length_replicate]

/-- Only a recipient of everyone may be left out. -/
theorem Field.Spelled.type_eq_nobody {field : Field} {value : FieldValue}
    (hspelled : field.Spelled members value) (hnone : named field.name members = []) :
    field.type = .nobody := by
  cases hspelled with
  | once htype honce hread =>
      rw [hnone] at honce
      cases honce
  | nobody hcount hnobody => rfl

theorem Field.Spelled.eq_null {field : Field} {value : FieldValue}
    (hspelled : field.Spelled members value) (htype : field.type = .nobody) {document : Value}
    (hmem : document ∈ named field.name members) : document = .null := by
  cases hspelled with
  | once hother honce hread => exact absurd htype hother
  | nobody hcount hnobody =>
      rw [hnobody] at hmem
      exact List.eq_of_mem_replicate hmem

namespace Event

/-! Field values from members. -/

theorem eq_of_find?_field (hfields : (fields.map Field.name).Nodup) {field found : Field}
    (hmem : field ∈ fields) (hfound : (fields.find? (·.name = field.name)) = some found) :
    found = field := by
  rw [find?_field hfields hmem] at hfound
  exact (Option.some.inj hfound).symm

theorem ne_name_of_find?_field (hnone : fields.find? (·.name = name) = none) {field : Field}
    (hmem : field ∈ fields) : name ≠ field.name := by
  rintro rfl
  exact List.find?_eq_none.mp hnone field hmem (decide_eq_true rfl)

theorem gathers_of_collect (hfields : (fields.map Field.name).Nodup)
    {found final : List (String × FieldValue)} (hcollect : collect fields found members = .ok final)
    {field : Field} (hfield : field ∈ fields) :
    field.Gathers (found.lookup field.name) (named field.name members)
      (final.lookup field.name) := by
  induction members generalizing found with
  | nil =>
      cases hcollect
      exact .kept _
  | cons member members ih =>
      obtain ⟨name, document⟩ := member
      rw [collect] at hcollect
      cases hfind : fields.find? (·.name = name) with
      | none =>
          rw [hfind] at hcollect
          rw [Json.named_cons_of_ne (ne_name_of_find?_field hfind hfield)]
          exact ih hcollect
      | some first =>
          simp only [hfind] at hcollect
          split at hcollect
          case isTrue => cases hcollect
          case isFalse hfresh =>
            obtain ⟨value, hread, hcollect⟩ := Json.bind_eq_ok_iff.mp hcollect
            have hlater := ih hcollect
            by_cases hname : name = field.name
            · subst hname
              obtain rfl := eq_of_find?_field hfields hfield hfind
              rw [List.lookup_cons_self] at hlater
              rw [Json.named_cons_self, Option.not_isSome_iff_eq_none.mp hfresh]
              generalize named first.name members = documents at hlater
              generalize final.lookup first.name = known at hlater
              cases hlater with
              | kept => exact .taken hread
            · rw [List.lookup_cons, beq_false_of_ne (Ne.symm hname)] at hlater
              rw [Json.named_cons_of_ne hname]
              exact hlater

theorem exists_collect {found : List (String × FieldValue)}
    (hgathers : ∀ field ∈ fields, ∃ known,
      field.Gathers (found.lookup field.name) (named field.name members) known) :
    ∃ final, collect fields found members = .ok final := by
  induction members generalizing found with
  | nil => exact ⟨found, rfl⟩
  | cons member members ih =>
      obtain ⟨name, document⟩ := member
      rw [collect]
      cases hfind : fields.find? (·.name = name) with
      | none =>
          refine ih fun field hfield => ?_
          have hlater := hgathers field hfield
          rwa [Json.named_cons_of_ne (ne_name_of_find?_field hfind hfield)] at hlater
      | some first =>
          have hfirst : first ∈ fields := List.mem_of_find?_eq_some hfind
          have hname := List.find?_some hfind
          obtain rfl : first.name = name := of_decide_eq_true hname
          obtain ⟨known, hknown⟩ := hgathers first hfirst
          rw [Json.named_cons_self] at hknown
          generalize hlookup : found.lookup first.name = earlier at hknown
          generalize hnamed : named first.name members = documents at hknown
          cases hknown with
          | @taken _ value hread =>
              simp only [Option.isSome_none, Bool.false_eq_true, if_false, hread]
              change ∃ final, collect fields ((first.name, value) :: found) members = .ok final
              refine ih fun field hfield => ?_
              by_cases hname : first.name = field.name
              · rw [← hname, hnamed]
                exact ⟨_, .kept _⟩
              · have hlater := hgathers field hfield
                rw [Json.named_cons_of_ne hname] at hlater
                rwa [List.lookup_cons, beq_false_of_ne (Ne.symm hname)]

theorem complete_eq_ok_iff {found : List (String × FieldValue)} {values : List FieldValue} :
    complete found fields = .ok values ↔ List.Forall₂ (fun field value =>
      (found.lookup field.name).or field.type.absent? = some value) fields values := by
  induction fields generalizing values with
  | nil =>
      rw [List.forall₂_nil_left_iff, complete, Except.ok.injEq]
      exact eq_comm
  | cons field fields ih =>
      rw [List.forall₂_cons_left_iff, complete]
      cases hknown : (found.lookup field.name).or field.type.absent? with
      | none => simp only [reduceCtorEq, false_and, exists_false]
      | some value =>
          simp only [Json.bind_eq_ok_iff, Except.ok.injEq, Option.some.injEq, ih]
          constructor
          · rintro ⟨rest, hrest, rfl⟩
            exact ⟨value, rest, rfl, hrest, rfl⟩
          · rintro ⟨_, rest, rfl, hrest, rfl⟩
            exact ⟨rest, hrest, rfl⟩

theorem forall₂_congr_fields {rel other : Field → FieldValue → Prop} {values : List FieldValue}
    (hcongr : ∀ field ∈ fields, ∀ value, rel field value ↔ other field value) :
    List.Forall₂ rel fields values ↔ List.Forall₂ other fields values := by
  rw [List.forall₂_iff_zip, List.forall₂_iff_zip]
  refine and_congr_right fun _ => ?_
  constructor
  · intro hall field value hmem
    exact (hcongr field (List.of_mem_zip hmem).1 value).mp (hall hmem)
  · intro hall field value hmem
    exact (hcongr field (List.of_mem_zip hmem).1 value).mpr (hall hmem)

theorem exists_of_forall₂_fields {rel : Field → FieldValue → Prop} {values : List FieldValue}
    (hvalues : List.Forall₂ rel fields values) {field : Field} (hfield : field ∈ fields) :
    ∃ value, rel field value := by
  obtain ⟨index, hindex, rfl⟩ := List.getElem_of_mem hfield
  exact ⟨_, (List.forall₂_iff_get.mp hvalues).2 index hindex (hvalues.length_eq ▸ hindex)⟩

/-- Members give a list of fields their values if they spell each of them. -/
theorem ofMembers_eq_ok_iff (hfields : (fields.map Field.name).Nodup) {values : List FieldValue} :
    ofMembers fields members = .ok values ↔
      List.Forall₂ (Field.Spelled members) fields values := by
  have hknown {final : List (String × FieldValue)} (hcollect : collect fields [] members = .ok final)
      {field : Field} (hfield : field ∈ fields) (value : FieldValue) :
      (final.lookup field.name).or field.type.absent? = some value ↔ field.Spelled members value := by
    have hgathers := gathers_of_collect hfields hcollect hfield
    rw [Field.spelled_iff]
    constructor
    · exact fun hvalue => ⟨_, hgathers, hvalue⟩
    · rintro ⟨known, hother, hvalue⟩
      rwa [hgathers.unique hother]
  have hcongr {final : List (String × FieldValue)} (hcollect : collect fields [] members = .ok final) :
      complete final fields = .ok values ↔ List.Forall₂ (Field.Spelled members) fields values := by
    rw [complete_eq_ok_iff]
    exact forall₂_congr_fields fun _ hfield value => hknown hcollect hfield value
  constructor
  · intro hvalues
    obtain ⟨final, hcollect, hcomplete⟩ := Json.bind_eq_ok_iff.mp hvalues
    exact (hcongr hcollect).mp hcomplete
  · intro hspelled
    have hgathers : ∀ field ∈ fields, ∃ known,
        field.Gathers (List.lookup field.name []) (named field.name members) known := by
      intro field hfield
      obtain ⟨value, hvalue⟩ := exists_of_forall₂_fields hspelled hfield
      obtain ⟨known, hknown, _⟩ := Field.spelled_iff.mp hvalue
      exact ⟨known, hknown⟩
    obtain ⟨final, hcollect⟩ := exists_collect hgathers
    rw [ofMembers, hcollect]
    exact (hcongr hcollect).mpr hspelled

end Event

end Herald
