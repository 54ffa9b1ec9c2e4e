import Herald.Store.Tables

/-!
Distinct rows: a user has at most one row for each content. Statements on an open store keep rows
distinct, and inserting adds the new row exactly if none with the same user and content is there.
-/

namespace Herald.Store.Tables

variable {tables : Tables} {user content : Identifier} {new : NewNotification}

theorem isAbout_iff {row : Notification} :
    isAbout user content row = true ↔ row.user = user ∧ row.content = some content := by
  rw [isAbout, Bool.and_eq_true, decide_eq_true_eq, decide_eq_true_eq]

def Distinct (rows : List Notification) : Prop :=
  ∀ user content, rows.countP (isAbout user content) ≤ 1

theorem hasContent_iff : tables.hasContent user content = true ↔
    0 < tables.rows.countP (isAbout user content) := by
  rw [hasContent, List.any_eq_true, List.countP_pos_iff]

theorem hasContent_eq_false_iff : tables.hasContent user content = false ↔
    tables.rows.countP (isAbout user content) = 0 := by
  rw [← Bool.not_eq_true, hasContent_iff, Nat.not_lt, Nat.le_zero]

theorem hasContent_of_rows_append {after : Tables} {gained : List Notification}
    (hrows : after.rows = tables.rows ++ gained) (hcontent : tables.hasContent user content = true) :
    after.hasContent user content = true := by
  rw [hasContent, hrows, List.any_append]
  exact Bool.or_eq_true_iff.mpr (.inl hcontent)

theorem isEmpty_filter_rows (tables : Tables) (user content : Identifier) :
    (tables.rows.filter (isAbout user content)).isEmpty = !tables.hasContent user content := by
  rw [Bool.eq_iff_iff]
  simp [hasContent]

theorem hasContent_of_filter_ne_nil
    (hrows : ¬(tables.rows.filter (isAbout user content)).isEmpty = true) :
    tables.hasContent user content = true := by
  simpa [isEmpty_filter_rows] using hrows

theorem isEmpty_filter_users (huser : tables.hasUser user = true) :
    (tables.users.filter (·.id = user)).isEmpty = false := by
  obtain ⟨found, hfound, hid⟩ := List.any_eq_true.mp huser
  rw [← Bool.not_eq_true, List.isEmpty_iff]
  exact List.ne_nil_of_mem (List.mem_filter.mpr ⟨hfound, hid⟩)

theorem collides_iff : tables.collides new = true ↔
    ∃ content, new.content = some content ∧ tables.hasContent new.user content = true := by
  rw [collides]
  cases new.content with
  | none => exact ⟨nofun, fun ⟨_, hcontent, _⟩ => nomatch hcontent⟩
  | some content =>
      constructor
      · intro hrow
        exact ⟨content, rfl, hrow⟩
      · rintro ⟨_, hcontent, hrow⟩
        cases hcontent
        exact hrow

def nextRow (tables : Tables) (new : NewNotification) : Notification :=
  new.recorded (tables.supply tables.recorded).id (tables.supply tables.recorded).createdAt

theorem rows_add : (tables.add new).rows = tables.rows ++ [tables.nextRow new] := rfl

theorem isAbout_nextRow_iff : isAbout user content (tables.nextRow new) = true ↔
    new.user = user ∧ new.content = some content :=
  isAbout_iff

theorem distinct_add (hdistinct : Distinct tables.rows) (hfree : tables.collides new = false) :
    Distinct (tables.add new).rows := by
  intro user content
  rw [rows_add, List.countP_append, List.countP_singleton]
  split
  case isFalse => exact hdistinct user content
  case isTrue habout =>
    obtain ⟨rfl, hcontent⟩ := isAbout_nextRow_iff.mp habout
    have hnone : tables.hasContent new.user content = false := by
      rw [← Bool.not_eq_true] at hfree ⊢
      exact fun hrow => hfree (collides_iff.mpr ⟨content, hcontent, hrow⟩)
    have hzero := hasContent_eq_false_iff.mp hnone
    omega

theorem insert_of_collides (hcollides : tables.collides new = true) :
    tables.insert new = (.ok 0, tables) :=
  if_pos hcollides

theorem insert_of_free (hfree : tables.collides new = false)
    (huser : tables.hasUser new.user = true) :
    tables.insert new = (.ok 1, tables.add new) := by
  rw [insert, if_neg (Bool.not_eq_true _ ▸ hfree), if_pos huser]

theorem answer_of_open (hopen : tables.isClosed = false) (statement : Statement) :
    tables.answer statement = tables.answerOpen statement :=
  if_neg (Bool.not_eq_true _ ▸ hopen)

/-- Inserting changes nothing unless it adds the row, which it then counts. -/
theorem answer_insert_cases (tables : Tables) (new : NewNotification) :
    (∃ given, tables.answer (.insert new) = (given, tables) ∧ ∀ affected, given = .ok affected →
        affected = 0) ∨
      tables.collides new = false ∧ tables.answer (.insert new) = (.ok 1, tables.add new) := by
  rw [Tables.answer]
  split
  · refine .inl ⟨_, rfl, fun affected heq => ?_⟩
    cases heq
  · rw [Tables.answerOpen, Tables.insert]
    split
    · exact .inl ⟨_, rfl, fun affected heq => (Except.ok.inj heq).symm⟩
    · next hcollides =>
        split
        · exact .inr ⟨Bool.not_eq_true _ ▸ hcollides, rfl⟩
        · refine .inl ⟨_, rfl, fun affected heq => ?_⟩
          cases heq

end Herald.Store.Tables
