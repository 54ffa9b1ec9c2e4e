import Herald.Proofs.History.Marking
import Herald.Proofs.Store.Likeness

/-!
Recording once per content. To look before a row is inserted changes nothing of what recording does:
the insertion alone gives the same, and leaves the same rows apart from the id and time of a new one.
-/

namespace Herald.History

open Store (Attempt Fault Plan Stamp Statement Tables)
open Store.Tables (Distinct)

variable {tables : Tables} {new : NewNotification}

/-! The attempts as plans. -/

/-- Whether an insertion added its row, if that can be said. -/
def added : Except Fault Nat → Except Store.Failure Bool
  | .ok affected => .ok (decide (affected ≠ 0))
  | .error fault => if fault.isUniqueness then .ok false else .error (.ofFault fault)

theorem run_insert_eq (new : NewNotification) :
    (insert new).run = .step (.query (.insert new)) fun given => .done (added given) := by
  apply congrArg (Plan.step (.query (.insert new)))
  funext given
  cases given with
  | ok affected => rfl
  | error fault => cases fault <;> rfl

theorem run_recordIfAbsent_of_none (hcontent : new.content = none) :
    (recordIfAbsent new).run = (insert new).run := by
  rw [recordIfAbsent, hcontent]

theorem run_recordIfAbsent_of_some {content : Identifier} (hcontent : new.content = some content) :
    (recordIfAbsent new).run =
      .step (.query (.findContent new.user content)) fun
        | .ok rows => if rows.isEmpty then (insert new).run else .done (.ok false)
        | .error fault => .done (.error (.ofFault fault)) := by
  rw [recordIfAbsent, hcontent]
  apply congrArg (Plan.step (.query (.findContent new.user content)))
  funext given
  cases given with
  | error fault => rfl
  | ok rows => cases rows <;> rfl

/-! What they give on a store. -/

/-- What an attempt gives on a store, and what it leaves of it. -/
def carryOut {α : Type} (attempt : Attempt α) (tables : Tables) :
    Except Store.Failure α × Tables :=
  attempt.run.run Tables.serve tables

theorem carryOut_insert (hopen : tables.isClosed = false) (hknown : tables.hasUser new.user = true) :
    carryOut (insert new) tables =
      if tables.collides new then (.ok false, tables) else (.ok true, tables.add new) := by
  have hanswer := Tables.answer_of_open hopen (.insert new)
  rw [Tables.answerOpen] at hanswer
  rw [carryOut, run_insert_eq]
  change (added (tables.answer (.insert new)).1, (tables.answer (.insert new)).2) = _
  rw [hanswer]
  cases hcollides : tables.collides new with
  | true => simp [Tables.insert_of_collides hcollides, added]
  | false => simp [Tables.insert_of_free hcollides hknown, added]

/-- The look before the insertion finds a row just where the insertion would collide. -/
theorem carryOut_recordIfAbsent (hopen : tables.isClosed = false)
    (hknown : tables.hasUser new.user = true) :
    carryOut (recordIfAbsent new) tables = carryOut (insert new) tables := by
  cases hcontent : new.content with
  | none => rw [carryOut, run_recordIfAbsent_of_none hcontent, carryOut]
  | some content =>
      have hanswer : tables.answer (.findContent new.user content) =
          (.ok (tables.rows.filter (Tables.isAbout new.user content)), tables) :=
        Tables.answer_of_open hopen _
      rw [carryOut, run_recordIfAbsent_of_some hcontent]
      change Plan.run Tables.serve (match (tables.answer (.findContent new.user content)).1 with
        | .ok rows => if rows.isEmpty then (insert new).run else .done (.ok false)
        | .error fault => .done (.error (.ofFault fault)))
          (tables.answer (.findContent new.user content)).2 = _
      rw [hanswer]
      cases hrows : tables.rows.filter (Tables.isAbout new.user content) with
      | nil => rfl
      | cons row rows =>
          have hcollides : tables.collides new = true := by
            apply Tables.collides_iff.mpr
            refine ⟨content, hcontent, Tables.hasContent_of_filter_ne_nil ?_⟩
            simp [hrows]
          rw [carryOut_insert hopen hknown, if_pos hcollides]
          rfl

/-- A row collides with those of the same user about the same content. -/
theorem collides_eq_false_iff : tables.collides new = false ↔
    new.content = none ∨
      ∀ row ∈ tables.rows, ¬(row.user = new.user ∧ row.content = new.content) := by
  rw [← Bool.not_eq_true, Tables.collides_iff]
  cases hcontent : new.content with
  | none => simp
  | some content => simp [Tables.hasContent, Tables.isAbout_iff]

/--
On an open store whose rows are distinct, recording a notification of a known user gives what the
insertion alone gives, and leaves what that leaves, up to the id and time of the new row. The row is
added exactly if the notification is about no content or the user has no row about it yet; otherwise the
store stays as it is. Either way its rows are still distinct.
-/
theorem recordIfAbsent_agrees_with_insert (hopen : tables.isClosed = false)
    (hdistinct : Distinct tables.rows) (hknown : tables.hasUser new.user = true)
    (supply : Nat → Stamp) :
    let recorded := carryOut (recordIfAbsent new) tables
    let inserted := carryOut (insert new) (tables.supplied supply)
    recorded.1 = inserted.1 ∧ recorded.2.Alike inserted.2 ∧
      (recorded.1 = .ok true ↔ new.content = none ∨
        ∀ row ∈ tables.rows, ¬(row.user = new.user ∧ row.content = new.content)) ∧
      (recorded = (.ok false, tables) ∨ recorded.1 = .ok true ∧ ∃ id createdAt,
        recorded.2 = { tables with
          rows := tables.rows ++ [⟨id, new.user, new.type, false, new.post, new.postTitle,
            new.commentContent, new.content, new.reason, createdAt⟩]
          recorded := tables.recorded + 1 }) ∧
      Distinct recorded.2.rows ∧ Distinct inserted.2.rows := by
  intro recorded inserted
  have halike := tables.alike_supplied supply
  have hrecorded : recorded = _ :=
    (carryOut_recordIfAbsent hopen hknown).trans (carryOut_insert hopen hknown)
  have hinserted : inserted = _ := @carryOut_insert (tables.supplied supply) new hopen hknown
  rw [← halike.collides_eq] at hinserted
  rw [← collides_eq_false_iff, hrecorded, hinserted]
  cases hcollides : tables.collides new with
  | true => exact ⟨rfl, halike, by simp, .inl rfl, hdistinct, hdistinct⟩
  | false =>
      have hcollides' : (tables.supplied supply).collides new = false :=
        (halike.collides_eq new).symm.trans hcollides
      exact ⟨rfl, halike.add new, by simp, .inr ⟨rfl, _, _, rfl⟩,
        Tables.distinct_add hdistinct hcollides, Tables.distinct_add hdistinct hcollides'⟩

/-! A comment for one user, when another user has a row about the same content. -/

def reply : Notification :=
  NewNotification.recorded
    { user := .ofNat 2, type := .replyCreated, content := some (.ofNat 5) } (.ofNat 9) .epoch

def oneReply : Tables :=
  ⟨[⟨.ofNat 1, "reader", .epoch, .epoch⟩, ⟨.ofNat 2, "author", .epoch, .epoch⟩], [reply], 0,
    fun index => ⟨.ofNat (10 + index), .epoch⟩, false⟩

theorem recordIfAbsent_agrees_with_insert_of_comment :
    oneReply.isClosed = false ∧ Distinct oneReply.rows ∧ oneReply.hasUser comment.user = true ∧
      (carryOut (recordIfAbsent comment) oneReply).1 = .ok true ∧
      (carryOut (insert comment) oneReply).1 = .ok true ∧
      Distinct (carryOut (recordIfAbsent comment) oneReply).2.rows := by
  have hdistinct : Distinct oneReply.rows := fun _ _ => List.countP_le_length
  have hknown : oneReply.hasUser comment.user = true := by decide
  obtain ⟨hsame, -, hadds, -, hrows, -⟩ :=
    @recordIfAbsent_agrees_with_insert oneReply comment rfl hdistinct hknown oneReply.supply
  have hrecorded : (carryOut (recordIfAbsent comment) oneReply).1 = .ok true := by
    apply hadds.mpr
    right
    decide
  exact ⟨rfl, hdistinct, hknown, hrecorded, hsame.symm.trans hrecorded, hrows⟩

end Herald.History
