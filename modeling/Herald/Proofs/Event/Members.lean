import Herald.Proofs.Event.Shapes

/-!
The members of the text of an event, by name. Besides the tag these are the fields of the event, each
written once, and among them the recipient, which is null just in an event for everyone.
-/

namespace Herald

open Json (Value named)

variable {name : String} {user : Identifier}

/-- The value of the field that names the recipient. -/
def Recipient.value : Recipient → FieldValue
  | .user user => .id user
  | .everyone => .nobody

namespace Event

/-- The value of the field with a name, if events of this kind have such a field. -/
def field? (event : Event) (name : String) : Option FieldValue :=
  ((event.kind.fields.map Field.name).zip event.values).lookup name

/-! The record that any JSON reader finds in the text. -/

theorem spells_encode (event : Event) : Json.Spells event.encode (.record event.document) := by
  apply whole_of_reads
  rw [encode_eq_print]
  exact Json.reads_record fun _ hmem => reads_document _ event hmem

theorem document_eq_labelled (event : Event) :
    event.document = labelled event.kind (event.values.map FieldValue.document) := by
  cases event <;> rfl

theorem named_zip_map {names : List String} (hnames : names.Nodup) (values : List FieldValue) :
    named name (names.zip (values.map FieldValue.document)) =
      (((names.zip values).lookup name).map FieldValue.document).toList := by
  induction names generalizing values with
  | nil => rfl
  | cons first names ih =>
      cases values with
      | nil => rfl
      | cons value values =>
          rw [List.nodup_cons] at hnames
          rw [List.map_cons, List.zip_cons_cons, List.zip_cons_cons, List.lookup_cons]
          by_cases hname : first = name
          · subst hname
            rw [Json.named_cons_self, named_zip_of_notMem hnames.1, beq_self_eq_true]
            rfl
          · rw [Json.named_cons_of_ne hname, beq_false_of_ne (Ne.symm hname)]
            exact ih hnames.2 values

theorem named_document (hname : name ≠ tagName) (event : Event) :
    named name event.document = ((event.field? name).map FieldValue.document).toList := by
  rw [document_eq_labelled, labelled, Json.named_cons_of_ne (Ne.symm hname)]
  exact named_zip_map (nodup_fields event.kind) event.values

theorem named_tagName_document (event : Event) :
    named tagName event.document = [.text event.kind.name] := by
  rw [document_eq_labelled, named_tagName_labelled]

/-! The recipient. -/

theorem field?_recipient (event : Event) :
    event.field? "recipient" = some event.recipient.value := by
  cases event <;> rfl

theorem named_recipient_document (event : Event) :
    named "recipient" event.document = [event.recipient.value.document] := by
  rw [named_document (by decide), field?_recipient]
  rfl

theorem named_recipient_eq_text_iff {event : Event} :
    named "recipient" event.document = [.text user.text] ↔ event.recipient = .user user := by
  rw [named_recipient_document, List.singleton_inj]
  cases event.recipient with
  | user other =>
      rw [Recipient.user.injEq, ← Identifier.text_injective.eq_iff, ← Value.text.injEq]
      rfl
  | everyone => simp only [Recipient.value, FieldValue.document, reduceCtorEq]

theorem named_recipient_eq_null_iff {event : Event} :
    named "recipient" event.document = [.null] ↔ event.recipient = .everyone := by
  rw [named_recipient_document, List.singleton_inj]
  cases event.recipient with
  | user other => simp only [Recipient.value, FieldValue.document, reduceCtorEq]
  | everyone => simp only [Recipient.value, FieldValue.document]

end Event

end Herald
