import Herald.Proofs.Event.Field

/-!
Writing an event and reading it back. The text of an event is the compact form of one JSON record,
whose members are listed here for every kind; any JSON reader finds that record in the text, and the
reader of events finds the event.
-/

namespace Herald.Event

open Json (Folds Reader Reads Value)

/-- The members of an event's record, each kind with its own fields in order. -/
def document : Event → List (String × Value)
  | .reviewApproved recipient occurredAt =>
    [("type", .text "REVIEW_APPROVED"), ("recipient", .text recipient.text),
      ("occurred_at", .text occurredAt.text)]
  | .reviewRejected recipient reason occurredAt =>
    [("type", .text "REVIEW_REJECTED"), ("recipient", .text recipient.text),
      ("reason", .text reason), ("occurred_at", .text occurredAt.text)]
  | .postCreated post category title occurredAt =>
    [("type", .text "POST_CREATED"), ("recipient", .null), ("post_id", .text post.text),
      ("category", .text category.name), ("title", .text title),
      ("occurred_at", .text occurredAt.text)]
  | .postDeleted post category occurredAt =>
    [("type", .text "POST_DELETED"), ("recipient", .null), ("post_id", .text post.text),
      ("category", .text category.name), ("occurred_at", .text occurredAt.text)]
  | .commentCreated recipient comment post postTitle content occurredAt =>
    [("type", .text "COMMENT_CREATED"), ("recipient", .text recipient.text),
      ("comment_id", .text comment.text), ("post_id", .text post.text),
      ("post_title", .text postTitle), ("content", .text content),
      ("occurred_at", .text occurredAt.text)]
  | .replyCreated recipient reply post postTitle content occurredAt =>
    [("type", .text "REPLY_CREATED"), ("recipient", .text recipient.text),
      ("reply_id", .text reply.text), ("post_id", .text post.text),
      ("post_title", .text postTitle), ("content", .text content),
      ("occurred_at", .text occurredAt.text)]
  | .commentAdded post comment occurredAt =>
    [("type", .text "COMMENT_ADDED"), ("recipient", .null), ("post_id", .text post.text),
      ("comment_id", .text comment.text), ("occurred_at", .text occurredAt.text)]
  | .commentDeleted post comment occurredAt =>
    [("type", .text "COMMENT_DELETED"), ("recipient", .null), ("post_id", .text post.text),
      ("comment_id", .text comment.text), ("occurred_at", .text occurredAt.text)]

theorem encode_eq_print (event : Event) : event.encode = (Value.record event.document).print := by
  cases event <;> rfl

theorem lookup_recipient_document (event : Event) :
    event.document.lookup "recipient" = some .null ↔
      event.kind ∈ [Kind.postCreated, .postDeleted, .commentAdded, .commentDeleted] := by
  cases event <;> simp [document, kind, List.lookup_cons]

/-! The fields of an event with their values. -/

def entries (event : Event) : List Entry :=
  (event.kind.fields.zip event.values).map fun pair => ⟨pair.1, pair.2.document, pair.2⟩

theorem field_entries (event : Event) : event.entries.map Entry.field = event.kind.fields := by
  cases event <;> rfl

theorem value_entries (event : Event) : event.entries.map Entry.value = event.values := by
  cases event <;> rfl

theorem members_eq_entries (event : Event) :
    event.members = (tagName, Json.Printer.text event.kind.name) ::
      event.entries.map fun entry => (entry.field.name, entry.value.print) := by
  cases event <;> rfl

theorem document_eq_entries (event : Event) :
    event.document = (tagName, .text event.kind.name) :: event.entries.map Entry.member := by
  cases event <;> rfl

theorem nodup_fields (kind : Kind) : (kind.fields.map Field.name).Nodup := by
  cases kind <;> decide

theorem tagName_notMem_fields (kind : Kind) : tagName ∉ kind.fields.map Field.name := by
  cases kind <;> decide

theorem reads_entry (event : Event) (depth : Nat) {entry : Entry} (hmem : entry ∈ event.entries) :
    Reads (Value.read depth) entry.value.print entry.document := by
  obtain ⟨pair, _, rfl⟩ := List.mem_map.mp hmem
  exact pair.2.reads_print depth

theorem read_entry (event : Event) {entry : Entry} (hmem : entry ∈ event.entries) :
    entry.field.type.read entry.document = .ok entry.value := by
  have htype : ∀ entry ∈ event.entries, entry.field.type = entry.value.type := by
    cases event <;> simp [entries, kind, Kind.fields, values, FieldValue.type]
  obtain ⟨pair, _, rfl⟩ := List.mem_map.mp hmem
  rw [htype _ hmem]
  exact pair.2.read_document

theorem values_entries (event : Event) :
    Content.values event.kind (.members (event.entries.map Entry.member)) = .ok event.values := by
  have hnames : (event.entries.map (·.field.name)).Nodup := by
    have := nodup_fields event.kind
    rwa [← field_entries, List.map_map] at this
  have hmembers := ofMembers_entries hnames fun _ hmem => read_entry event hmem
  rwa [field_entries, value_entries] at hmembers

/-! Reading. -/

theorem reads_document (depth : Nat) (event : Event) {member : String × Value}
    (hmem : member ∈ event.document) : Reads (Value.read depth) member.2.print member.2 := by
  rw [document_eq_entries, List.mem_cons] at hmem
  rcases hmem with rfl | hlater
  · exact Json.reads_text depth event.kind.name
  · obtain ⟨entry, hentry, rfl⟩ := List.mem_map.mp hlater
    obtain ⟨pair, _, rfl⟩ := List.mem_map.mp hentry
    change Reads (Value.read depth) pair.2.document.print pair.2.document
    rw [FieldValue.print_document]
    exact pair.2.reads_print depth

theorem reads_tag (kind : Kind) : Reads readTag (Json.Printer.text kind.name) kind := by
  apply Reads.textWith
  simp only [Kind.ofName?_name]

theorem reads_tag_member (depth : Nat) (kind : Kind) (members : List (String × Value)) :
    Reads (Tagged.step depth ⟨none, members⟩ tagName) (":" ++ Json.Printer.text kind.name)
      ⟨some kind, members⟩ := by
  rw [Tagged.step, if_pos rfl]
  exact ((reads_tag kind).member tagName).map fun kind => Tagged.mk (some kind) members

theorem reads_field_member (depth : Nat) {name text : String} {value : Value}
    (hname : name ≠ tagName) (hread : Reads (Value.read depth) text value) (tagged : Tagged) :
    Reads (Tagged.step depth tagged name) (":" ++ text)
      { tagged with members := (name, value) :: tagged.members } := by
  rw [Tagged.step, if_neg hname]
  exact (hread.member name).map fun value =>
    { tagged with members := (name, value) :: tagged.members }

theorem foldl_members (entries : List Entry) (tagged : Tagged) :
    entries.foldl (fun tagged entry =>
      { tagged with members := entry.member :: tagged.members }) tagged =
      { tagged with members := (entries.map Entry.member).reverse ++ tagged.members } := by
  induction entries generalizing tagged with
  | nil => rfl
  | cons entry entries ih =>
      rw [List.foldl_cons, ih, List.map_cons, List.reverse_cons, List.append_assoc,
        List.singleton_append]

/-- The tag comes first, and the other members are gathered in their order. -/
theorem folds_members (depth : Nat) (event : Event) :
    Folds (Tagged.step depth) ⟨none, []⟩ event.members
      ⟨some event.kind, (event.entries.map Entry.member).reverse⟩ := by
  have hfields : Folds (Tagged.step depth) ⟨some event.kind, []⟩
      (event.entries.map fun entry => (entry.field.name, entry.value.print))
      (event.entries.foldl (fun tagged entry =>
        { tagged with members := entry.member :: tagged.members }) ⟨some event.kind, []⟩) := by
    apply Folds.of_items
    intro entry hentry tagged
    have hname : entry.field.name ≠ tagName := by
      intro heq
      apply tagName_notMem_fields event.kind
      rw [← heq, ← field_entries, List.map_map]
      exact List.mem_map_of_mem (f := Field.name ∘ Entry.field) hentry
    exact reads_field_member depth hname (reads_entry event depth hentry) tagged
  rw [foldl_members, List.append_nil] at hfields
  rw [members_eq_entries]
  exact Folds.cons (reads_tag_member depth event.kind []) hfields

theorem reads_readRecord (depth : Nat) (event : Event) :
    Reads (Reader.inRecord (readRecord depth)) event.encode
      (event.kind, .members (event.entries.map Entry.member)) := by
  apply Json.reads_inRecord
  intro rest
  rw [readRecord, Reader.bind_done ((folds_members depth event).foldMembers_record rest)]
  simp only [List.reverse_reverse]
  rfl

theorem ofContent_entries (event : Event) :
    ofContent event.kind (.members (event.entries.map Entry.member)) = .ok event := by
  rw [ofContent, values_entries]
  simp only [bind, Except.bind, ofValues?_values]

theorem reads_event (depth : Nat) (event : Event) :
    Reads (read (depth + 1)) event.encode event := by
  intro rest
  have hdispatch : readTagged (depth + 1) (Text.octets event.encode ++ rest) =
      Reader.inRecord (readRecord depth) (Text.octets event.encode ++ rest) := by
    rw [encode, Json.Printer.record, Text.octets_append, Text.octets_append]
    rfl
  rw [read, Reader.bind_done (hdispatch.trans (reads_readRecord depth event rest))]
  simp only [ofContent_entries]
  rfl

theorem whole_of_reads {α : Type} {reader : Reader α} {text : String} {value : α}
    (hreads : Reads reader text value) :
    Reader.whole reader (Text.octets text) = .done value [] := by
  have hstart := hreads []
  rw [List.append_nil] at hstart
  rw [Reader.whole, Reader.bind_done hstart]
  rfl

/--
Every event is written as the compact form of its record, with the tag first, the fields in order and
a null recipient just for the kinds that address everyone; and that text is read as the same event.
-/
theorem decode_encode (event : Event) :
    event.encode = (Value.record event.document).print ∧
      event.document.map Prod.fst = "type" :: event.kind.fields.map Field.name ∧
      event.document.head? = some ("type", .text event.kind.name) ∧
      (event.document.lookup "recipient" = some .null ↔
        event.kind ∈ [Kind.postCreated, .postDeleted, .commentAdded, .commentDeleted]) ∧
      Reader.whole (Value.read Json.nestingLimit) (Text.octets event.encode) =
        .done (.record event.document) [] ∧
      decode event.encode = .ok event := by
  refine ⟨encode_eq_print event, ?_, ?_, lookup_recipient_document event, ?_, ?_⟩
  · cases event <;> rfl
  · cases event <;> rfl
  · apply whole_of_reads
    rw [encode_eq_print]
    exact Json.reads_record fun _ hmem => reads_document _ event hmem
  · have hread : Reader.whole (read Json.nestingLimit) (Text.octets event.encode) =
        .done event [] := whole_of_reads (reads_event 126 event)
    rw [decode, hread]

end Herald.Event
