import Herald.Event.Wire
import Herald.Json.Pointer
import Herald.Proofs.Identifier
import Herald.Proofs.Instant
import Herald.Proofs.Json.Reads

/-!
Field values as JSON values. Each field value is read back from the JSON value it is written as, and
members that hold a value for every field of a list of fields give just those values.
-/

namespace Herald

open Json (Mismatch Reads Value)

namespace FieldValue

/-- The JSON value that a field value is written as. -/
def document : FieldValue → Value
  | .id value => .text value.text
  | .nobody => .null
  | .category value => .text value.name
  | .text value => .text value
  | .instant value => .text value.text

theorem print_document (value : FieldValue) : value.document.print = value.print := by
  cases value <;> rfl

theorem reads_print (depth : Nat) (value : FieldValue) :
    Reads (Value.read depth) value.print value.document := by
  cases value with
  | nobody => exact Json.reads_null depth
  | _ => exact Json.reads_text depth _

theorem read_document (value : FieldValue) : value.type.read value.document = .ok value := by
  cases value with
  | id value =>
      simp only [type, document, FieldType.read, FieldType.readId, Identifier.read_text]
      rfl
  | nobody => rfl
  | category value =>
      simp only [type, document, FieldType.read, FieldType.readCategory,
        FieldType.readCategoryName, Category.ofName?_name]
      rfl
  | text value => rfl
  | instant value =>
      simp only [type, document, FieldType.read, FieldType.readInstant, Instant.read_text]
      rfl

end FieldValue

namespace Event

/-! A field together with the JSON value of its member and the field value read from that. -/

structure Entry where
  field : Field
  document : Value
  value : FieldValue

namespace Entry

def member (entry : Entry) : String × Value := (entry.field.name, entry.document)

def found (entry : Entry) : String × FieldValue := (entry.field.name, entry.value)

end Entry

variable {entries : List Entry}

theorem find?_field {fields : List Field} (hnodup : (fields.map Field.name).Nodup) {field : Field}
    (hmem : field ∈ fields) : fields.find? (·.name = field.name) = some field := by
  induction fields with
  | nil => exact absurd hmem List.not_mem_nil
  | cons first fields ih =>
      rw [List.map_cons, List.nodup_cons] at hnodup
      rcases List.mem_cons.mp hmem with rfl | hlater
      · rw [List.find?_cons_of_pos (by simp)]
      · have hne : first.name ≠ field.name := by
          intro heq
          exact hnodup.1 (heq ▸ List.mem_map_of_mem hlater)
        rw [List.find?_cons_of_neg (by simpa using hne), ih hnodup.2 hlater]

theorem lookup_found_eq_none {before : List Entry} {name : String}
    (hfresh : name ∉ before.map (·.field.name)) :
    (before.map Entry.found).reverse.lookup name = none := by
  rw [List.lookup_eq_none_iff]
  intro pair hpair
  obtain ⟨entry, hentry, rfl⟩ := List.mem_map.mp (List.mem_reverse.mp hpair)
  have hne : name ≠ entry.field.name := by
    intro heq
    exact hfresh (heq ▸ List.mem_map_of_mem (f := fun entry : Entry => entry.field.name) hentry)
  simpa [Entry.found] using hne

theorem lookup_found (hnodup : (entries.map (·.field.name)).Nodup) {entry : Entry}
    (hmem : entry ∈ entries) :
    (entries.map Entry.found).reverse.lookup entry.field.name = some entry.value := by
  obtain ⟨before, after, rfl⟩ := List.append_of_mem hmem
  rw [List.map_append, List.map_cons, List.nodup_append] at hnodup
  have hfresh : entry.field.name ∉ after.map (·.field.name) :=
    (List.nodup_cons.mp hnodup.2.1).1
  rw [List.lookup_eq_some_iff]
  refine ⟨(after.map Entry.found).reverse, (before.map Entry.found).reverse, ?_, ?_⟩
  · simp only [List.map_append, List.map_cons, List.reverse_append, List.reverse_cons,
      List.append_assoc, List.singleton_append]
    rfl
  · exact List.lookup_eq_none_iff.mp (lookup_found_eq_none hfresh)

theorem collect_entries {fields : List Field} (hnodup : (fields.map Field.name).Nodup)
    (hread : ∀ entry ∈ entries, entry.field.type.read entry.document = .ok entry.value)
    (before : List Entry) (hfields : fields = (before ++ entries).map Entry.field) :
    collect fields (before.map Entry.found).reverse (entries.map Entry.member) =
      .ok ((before ++ entries).map Entry.found).reverse := by
  induction entries generalizing before with
  | nil => rw [List.append_nil]; rfl
  | cons entry entries ih =>
      have hmem : entry.field ∈ fields := by
        rw [hfields]
        exact List.mem_map_of_mem (by simp)
      have hfresh : entry.field.name ∉ before.map (·.field.name) := by
        rw [hfields, List.map_map, List.map_append, List.nodup_append] at hnodup
        intro hbefore
        exact hnodup.2.2 _ hbefore _ (by simp) rfl
      have hrest := ih (fun other hother => hread other (List.mem_cons_of_mem _ hother))
        (before ++ [entry]) (by rw [hfields, List.append_assoc, List.singleton_append])
      rw [List.append_assoc, List.singleton_append] at hrest
      rw [List.map_cons, Entry.member, collect, find?_field hnodup hmem]
      simp only [lookup_found_eq_none hfresh, Option.isSome_none, Bool.false_eq_true, if_false,
        hread entry List.mem_cons_self]
      rw [← hrest, List.map_append, List.reverse_append]
      rfl

theorem complete_entries {found : List (String × FieldValue)}
    (hfound : ∀ entry ∈ entries, found.lookup entry.field.name = some entry.value) :
    complete found (entries.map Entry.field) = .ok (entries.map Entry.value) := by
  induction entries with
  | nil => rfl
  | cons entry entries ih =>
      have hrest := ih fun other hother => hfound other (List.mem_cons_of_mem _ hother)
      rw [List.map_cons, complete, hfound entry List.mem_cons_self, hrest]
      rfl

/-- One member for each field, with a value that the field's type accepts, gives those values. -/
theorem ofMembers_entries (hnodup : (entries.map (·.field.name)).Nodup)
    (hread : ∀ entry ∈ entries, entry.field.type.read entry.document = .ok entry.value) :
    ofMembers (entries.map Entry.field) (entries.map Entry.member) =
      .ok (entries.map Entry.value) := by
  have hnames : ((entries.map Entry.field).map Field.name).Nodup := by
    rwa [List.map_map]
  have hcollect := collect_entries hnames hread [] rfl
  have hcomplete := complete_entries fun entry hentry => lookup_found hnodup hentry
  rw [ofMembers]
  change Except.bind (collect _ ([].map Entry.found).reverse _) _ = _
  rw [hcollect]
  exact hcomplete

end Event

end Herald
