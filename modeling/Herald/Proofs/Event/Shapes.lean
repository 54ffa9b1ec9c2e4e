import Herald.Proofs.Event.Record

/-!
Events from lists. A list of the tag and one value for each field is the same event as the record that
labels those values with the names of the fields, and a list of any other length is no event.
-/

namespace Herald.Event

open Json (Value named)

variable {members : List (String × Value)} {documents : List Value} {fields : List Field}
variable {kind : Kind} {event : Event} {values : List FieldValue}

/-- The record of the tag and these values, each under the name of its field. -/
def labelled (kind : Kind) (documents : List Value) : List (String × Value) :=
  (tagName, .text kind.name) :: (kind.fields.map Field.name).zip documents

/-- A record as `labelled` makes it, but without the first field. -/
def unaddressed (kind : Kind) (documents : List Value) : List (String × Value) :=
  (tagName, .text kind.name) :: (kind.fields.map Field.name).tail.zip documents

/-- The document is one of this field's type, for the value. -/
def Holds (pair : Field × Value) (value : FieldValue) : Prop :=
  pair.1.type.read pair.2 = .ok value

/-! Values in the order of fields. -/

theorem ofItems_nil_ne_ok {total index : Nat} (hfields : fields ≠ [])
    (hlast : ∀ field ∈ fields.getLast?, field.type.absent? = none) :
    ofItems kind total index fields [] ≠ .ok values := by
  induction fields generalizing index values with
  | nil => exact absurd rfl hfields
  | cons field fields ih =>
      intro hitems
      rw [ofItems] at hitems
      cases habsent : field.type.absent? with
      | none =>
          rw [habsent] at hitems
          cases hitems
      | some value =>
          simp only [habsent] at hitems
          obtain ⟨rest, hrest, _⟩ := Json.bind_eq_ok_iff.mp hitems
          cases fields with
          | nil =>
              rw [hlast field rfl] at habsent
              cases habsent
          | cons second fields => exact ih (List.cons_ne_nil _ _) hlast hrest

/-- As the last field may not be left out, a list gives its values only if it has one for each. -/
theorem ofItems_eq_ok_iff {total index : Nat}
    (hlast : ∀ field ∈ fields.getLast?, field.type.absent? = none) :
    ofItems kind total index fields documents = .ok values ↔
      documents.length = fields.length ∧ List.Forall₂ Holds (fields.zip documents) values := by
  induction fields generalizing index documents values with
  | nil =>
      cases documents with
      | nil =>
          rw [ofItems, List.zip_nil_left, List.forall₂_nil_left_iff, Except.ok.injEq, eq_comm]
          exact (and_iff_right rfl).symm
      | cons document documents =>
          simp only [ofItems, reduceCtorEq, List.length_cons, List.length_nil, Nat.add_one_ne_zero,
            false_and]
  | cons field fields ih =>
      cases documents with
      | nil =>
          constructor
          · exact fun hitems => absurd hitems (ofItems_nil_ne_ok (List.cons_ne_nil _ _) hlast)
          · rintro ⟨hlength, _⟩
            cases hlength
      | cons document documents =>
          have hrest : ∀ last ∈ fields.getLast?, last.type.absent? = none := by
            intro last hmem
            cases fields with
            | nil => cases hmem
            | cons second fields => exact hlast last hmem
          rw [ofItems, List.zip_cons_cons, List.forall₂_cons_left_iff, List.length_cons,
            List.length_cons, Nat.add_right_cancel_iff]
          simp only [Json.bind_eq_ok_iff, Except.ok.injEq, ih hrest]
          constructor
          · rintro ⟨value, hread, later, ⟨hlength, hlater⟩, rfl⟩
            exact ⟨hlength, value, later, hread, hlater, rfl⟩
          · rintro ⟨hlength, value, later, hread, hlater, rfl⟩
            exact ⟨value, hread, later, ⟨hlength, hlater⟩, rfl⟩

theorem last_absent? (kind : Kind) : ∀ field ∈ kind.fields.getLast?, field.type.absent? = none := by
  cases kind <;> decide

/-! Lists of a tag and values. -/

theorem foldlM_advanceItem (found : Kind) (gathered : List Value) :
    documents.foldlM advanceItem (some found, gathered) =
      some (some found, documents.reverse ++ gathered) := by
  induction documents generalizing gathered with
  | nil => rfl
  | cons document documents ih =>
      rw [List.foldlM_cons, List.reverse_cons, List.append_assoc, List.singleton_append]
      exact ih (document :: gathered)

theorem tagged?_list (kind : Kind) (documents : List Value) :
    tagged? (.list (.text kind.name :: documents)) = some (kind, .items documents) := by
  rw [tagged?, List.foldlM_cons, advanceItem, Kind.ofDocument?, Kind.ofName?_name]
  change (documents.foldlM advanceItem (some kind, [])).bind itemsContent? = _
  rw [foldlM_advanceItem, List.append_nil]
  change some (kind, Content.items documents.reverse.reverse) = _
  rw [List.reverse_reverse]

theorem decode_list_eq_ok_iff {payload : String}
    (hspells : Json.Spells payload (.list (.text kind.name :: documents))) :
    decode payload = .ok event ↔ event.kind = kind ∧ documents.length = kind.fields.length ∧
      List.Forall₂ Holds (kind.fields.zip documents) event.values := by
  rw [← Except.toOption_eq_some_iff, toOption_decode hspells, ofDocument?, tagged?_list]
  change (ofContent kind (.items documents)).toOption = some event ↔ _
  rw [toOption_ofContent_eq_some_iff, Content.values, ofItems_eq_ok_iff (last_absent? kind)]

/-! The same values in a record. -/

theorem spelled_iff_holds {field : Field} {document : Value} {value : FieldValue}
    (hnamed : named field.name members = [document]) :
    field.Spelled members value ↔ Holds (field, document) value := by
  constructor
  · intro hspelled
    cases hspelled with
    | once htype hother hread =>
        rw [hnamed] at hother
        cases hother
        exact hread
    | @nobody name count hcount hother =>
        rw [hnamed] at hother
        have hnull := List.eq_of_mem_replicate (hother ▸ List.mem_singleton_self document)
        rw [hnull]
        rfl
  · intro hholds
    rw [Field.spelled_iff, hnamed]
    exact ⟨some value, .taken hholds, rfl⟩

theorem named_zip_of_notMem {name : String} {names : List String} (hname : name ∉ names) :
    named name (names.zip documents) = [] := by
  rw [named, List.map_eq_nil_iff, List.filter_eq_nil_iff]
  intro member hmem
  have hne : member.1 ≠ name := fun heq => hname (heq ▸ (List.of_mem_zip hmem).1)
  simpa using hne

theorem named_zip {names : List String} (hnames : names.Nodup) {name : String} {document : Value}
    (hmem : (name, document) ∈ names.zip documents) :
    named name (names.zip documents) = [document] := by
  induction names generalizing documents with
  | nil => cases hmem
  | cons first names ih =>
      cases documents with
      | nil => cases hmem
      | cons found documents =>
          rw [List.nodup_cons] at hnames
          rw [List.zip_cons_cons] at hmem ⊢
          rcases List.mem_cons.mp hmem with heq | hlater
          · cases heq
            rw [Json.named_cons_self, named_zip_of_notMem hnames.1]
          · have hne : first ≠ name := by
              rintro rfl
              exact hnames.1 (List.of_mem_zip hlater).1
            rw [Json.named_cons_of_ne hne]
            exact ih hnames.2 hlater

theorem forall₂_spelled_iff (hlength : documents.length = fields.length)
    (hnamed : ∀ pair ∈ fields.zip documents, named pair.1.name members = [pair.2]) :
    List.Forall₂ (Field.Spelled members) fields values ↔
      List.Forall₂ Holds (fields.zip documents) values := by
  induction fields generalizing documents values with
  | nil => rw [List.zip_nil_left, List.forall₂_nil_left_iff, List.forall₂_nil_left_iff]
  | cons field fields ih =>
      cases documents with
      | nil => cases hlength
      | cons document documents =>
          rw [List.zip_cons_cons, List.forall₂_cons_left_iff, List.forall₂_cons_left_iff]
          have hlater (later : List FieldValue) :
              List.Forall₂ (Field.Spelled members) fields later ↔
                List.Forall₂ Holds (fields.zip documents) later :=
            ih (Nat.succ.inj hlength) fun pair hpair => hnamed pair (List.mem_cons_of_mem _ hpair)
          simp only [spelled_iff_holds (hnamed (field, document) List.mem_cons_self), hlater]

theorem named_tagName_labelled (kind : Kind) (documents : List Value) :
    named tagName (labelled kind documents) = [.text kind.name] := by
  rw [labelled, Json.named_cons_self, named_zip_of_notMem (tagName_notMem_fields kind)]

theorem named_labelled {field : Field} {document : Value}
    (hmem : (field, document) ∈ kind.fields.zip documents) :
    named field.name (labelled kind documents) = [document] := by
  have hfield := (List.of_mem_zip hmem).1
  rw [labelled, Json.named_cons_of_ne (Ne.symm (ne_tagName_of_mem_fields hfield))]
  refine named_zip (nodup_fields kind) ?_
  rw [List.zip_map_left]
  exact List.mem_map_of_mem (f := Prod.map Field.name id) hmem

theorem spelledBy_labelled_iff (hlength : documents.length = kind.fields.length) :
    SpelledBy (labelled kind documents) event ↔
      event.kind = kind ∧ List.Forall₂ Holds (kind.fields.zip documents) event.values := by
  have hfields : List.Forall₂ (Field.Spelled (labelled kind documents)) kind.fields event.values ↔ _ :=
    forall₂_spelled_iff hlength fun _ hpair => named_labelled hpair
  constructor
  · intro hspelled
    obtain rfl := hspelled.kind_eq (named_tagName_labelled kind documents)
    exact ⟨rfl, hfields.mp hspelled.fields⟩
  · rintro ⟨rfl, hholds⟩
    exact ⟨named_tagName_labelled _ documents, hfields.mpr hholds⟩

/-! The recipient of everyone. -/

theorem fields_of_forEveryone (hkind : kind ∈ forEveryone) :
    kind.fields = ⟨"recipient", .nobody⟩ :: kind.fields.tail := by
  revert kind
  decide

theorem labelled_null (hkind : kind ∈ forEveryone) (documents : List Value) :
    labelled kind (.null :: documents) = (tagName, .text kind.name) :: ("recipient", .null) ::
      (kind.fields.map Field.name).tail.zip documents := by
  rw [labelled, fields_of_forEveryone hkind]
  rfl

theorem named_unaddressed {name : String} (hname : "recipient" ≠ name) (hkind : kind ∈ forEveryone)
    (documents : List Value) :
    named name (unaddressed kind documents) = named name (labelled kind (.null :: documents)) := by
  rw [labelled_null hkind, unaddressed]
  by_cases htag : tagName = name
  · subst htag
    rw [Json.named_cons_self, Json.named_cons_self, Json.named_cons_of_ne hname]
  · rw [Json.named_cons_of_ne htag, Json.named_cons_of_ne htag, Json.named_cons_of_ne hname]

theorem named_recipient_unaddressed (hkind : kind ∈ forEveryone) (documents : List Value) :
    named "recipient" (unaddressed kind documents) = [] := by
  have hnames := nodup_fields kind
  rw [fields_of_forEveryone hkind, List.map_cons, List.nodup_cons] at hnames
  rw [unaddressed, Json.named_cons_of_ne (by decide), ← List.map_tail]
  exact named_zip_of_notMem hnames.1

theorem named_recipient_labelled (hkind : kind ∈ forEveryone) (documents : List Value) :
    named "recipient" (labelled kind (.null :: documents)) = [.null] := by
  have hmem : (⟨"recipient", .nobody⟩, .null) ∈ kind.fields.zip (.null :: documents) := by
    rw [fields_of_forEveryone hkind]
    exact List.mem_cons_self
  exact named_labelled hmem

theorem spelled_nobody_iff {name : String} {count : Nat} {value : FieldValue} (hcount : count ≤ 1)
    (hnamed : named name members = List.replicate count .null) :
    Field.Spelled members ⟨name, .nobody⟩ value ↔ value = .nobody := by
  constructor
  · intro hspelled
    cases hspelled with
    | once htype => exact absurd rfl htype
    | nobody => rfl
  · rintro rfl
    exact .nobody hcount hnamed

theorem spelledBy_unaddressed_iff (hkind : kind ∈ forEveryone) :
    SpelledBy (unaddressed kind documents) event ↔
      SpelledBy (labelled kind (.null :: documents)) event := by
  have htag := named_unaddressed (by decide : "recipient" ≠ tagName) hkind documents
  have hspelled : ∀ field ∈ kind.fields, ∀ value, field.Spelled (unaddressed kind documents) value ↔
      field.Spelled (labelled kind (.null :: documents)) value := by
    rintro ⟨name, type⟩ hfield value
    by_cases hname : "recipient" = name
    · obtain rfl : type = .nobody := (type_eq_nobody_iff hfield).mpr ⟨hkind, hname.symm⟩
      subst hname
      rw [spelled_nobody_iff (Nat.zero_le 1) (named_recipient_unaddressed hkind documents),
        spelled_nobody_iff (Nat.le_refl 1) (named_recipient_labelled hkind documents)]
    · have hnamed := named_unaddressed hname hkind documents
      exact Field.spelled_congr (.of_eq hnamed) value
  have hlabelled := named_tagName_labelled kind (.null :: documents)
  constructor
  · intro hevent
    obtain rfl := hevent.kind_eq (htag.trans hlabelled)
    exact ⟨hlabelled, (forall₂_congr_fields hspelled).mp hevent.fields⟩
  · intro hevent
    obtain rfl := hevent.kind_eq hlabelled
    exact ⟨htag.trans hlabelled, (forall₂_congr_fields hspelled).mpr hevent.fields⟩

/--
A list of a kind's tag and some values is an event only if the values are as many as the fields of
that kind. Then it is the same event as the record of the tag and the same values under the names of
those fields, or no event if that is none. From the record, though not from the list, a null recipient
of everyone may be left out.
-/
theorem decode_list {payload : String}
    (hlist : Json.Spells payload (.list (.text kind.name :: documents))) :
    (documents.length ≠ kind.fields.length → Rejected payload) ∧
      (documents.length = kind.fields.length →
        (∀ other, Json.Spells other (.record (labelled kind documents)) →
          ∀ event, decode payload = .ok event ↔ decode other = .ok event) ∧
        ∀ other rest, kind ∈ forEveryone → documents = .null :: rest →
          Json.Spells other (.record (unaddressed kind rest)) →
            ∀ event, decode payload = .ok event ↔ decode other = .ok event) := by
  have hsame (hlength : documents.length = kind.fields.length) (event : Event) :
      decode payload = .ok event ↔ SpelledBy (labelled kind documents) event := by
    rw [decode_list_eq_ok_iff hlist, spelledBy_labelled_iff hlength]
    exact and_congr_right fun _ => and_iff_right hlength
  refine ⟨fun hlength => ?_, fun hlength => ⟨fun other hother event => ?_, ?_⟩⟩
  · refine rejected_iff.mpr fun event hevent => ?_
    exact hlength ((decode_list_eq_ok_iff hlist).mp hevent).2.1
  · rw [hsame hlength, decode_eq_ok_iff_spelledBy hother]
  · rintro other rest hkind rfl hother event
    rw [hsame hlength, decode_eq_ok_iff_spelledBy hother, spelledBy_unaddressed_iff hkind]

/-! A deleted post as a list, as a record that leaves out nobody, and as a list that does so too. -/

def deletedPost : List Value :=
  [.text "00000000-0000-0000-0000-000000000007", .text "LADIES", .text "1970-01-01T00:00:00Z"]

def deletedPostItems : String :=
  "\"00000000-0000-0000-0000-000000000007\", \"LADIES\", \"1970-01-01T00:00:00Z\"]"

def deletedPostRecord : String :=
  "\x7b\"type\": \"POST_DELETED\", \"post_id\": \"00000000-0000-0000-0000-000000000007\", " ++
    "\"category\": \"LADIES\", \"occurred_at\": \"1970-01-01T00:00:00Z\"\x7d"

set_option maxRecDepth 20000 in
theorem decode_list_of_deleted_post :
    decode ("[\"POST_DELETED\", null, " ++ deletedPostItems) =
        .ok (.postDeleted (.ofNat 7) .ladies .epoch) ∧
      decode deletedPostRecord = .ok (.postDeleted (.ofNat 7) .ladies .epoch) ∧
      Rejected ("[\"POST_DELETED\", " ++ deletedPostItems) := by
  have hlist : Json.Spells ("[\"POST_DELETED\", null, " ++ deletedPostItems)
      (.list (.text Kind.postDeleted.name :: .null :: deletedPost)) := by
    unfold Json.Spells
    cbv
  have hrecord : Json.Spells deletedPostRecord (.record (unaddressed .postDeleted deletedPost)) := by
    unfold Json.Spells
    cbv
  have hshort : Json.Spells ("[\"POST_DELETED\", " ++ deletedPostItems)
      (.list (.text Kind.postDeleted.name :: deletedPost)) := by
    unfold Json.Spells
    cbv
  have hinstant : FieldType.instant.read (.text "1970-01-01T00:00:00Z") = .ok (.instant .epoch) := by
    cbv
  have hdecode : decode ("[\"POST_DELETED\", null, " ++ deletedPostItems) =
      .ok (.postDeleted (.ofNat 7) .ladies .epoch) :=
    (decode_list_eq_ok_iff hlist).mpr
      ⟨rfl, rfl, .cons rfl (.cons rfl (.cons rfl (.cons hinstant .nil)))⟩
  refine ⟨hdecode, ?_, (decode_list hshort).1 (by decide)⟩
  exact (((decode_list hlist).2 rfl).2 _ _ (by decide) rfl hrecord _).mp hdecode

end Herald.Event
