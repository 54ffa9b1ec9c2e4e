import Herald.Proofs.Store.Ownership

/-!
How the rows of a store change. Whatever plan is carried out, every row stays in its place and is
marked at most, and new rows come after those that are there.
-/

namespace Herald.Store

variable {α : Type}

namespace Tables

variable {tables after last : Tables}

/-- A row as it is found later: all of it is as before, but it may be marked as read. -/
inductive Kept (row : Notification) : Notification → Prop
  | same : Kept row row
  | marked : Kept row (marked row)

theorem Kept.trans {first second third : Notification} (hearlier : Kept first second)
    (hlater : Kept second third) : Kept first third := by
  cases hearlier with
  | same => exact hlater
  | marked =>
      cases hlater with
      | same => exact .marked
      | marked => exact .marked

/-- A row that is read stays as it is. -/
theorem Kept.eq_of_marked {row found : Notification} (hkept : Kept (Tables.marked row) found) :
    found = Tables.marked row := by
  cases hkept with
  | same => rfl
  | marked => rfl

/-- Every row of the earlier store is still in its place in the later one. -/
def Extends (earlier later : Tables) : Prop :=
  ∀ (index : Nat) (row : Notification), earlier.rows[index]? = some row →
    ∃ found, later.rows[index]? = some found ∧ Kept row found

theorem Extends.refl (tables : Tables) : tables.Extends tables :=
  fun _ row hrow => ⟨row, hrow, .same⟩

theorem Extends.trans (hearlier : tables.Extends after) (hlater : after.Extends last) :
    tables.Extends last := by
  intro index row hrow
  obtain ⟨found, hfound, hkept⟩ := hearlier index row hrow
  obtain ⟨final, hfinal, hfinally⟩ := hlater index found hfound
  exact ⟨final, hfinal, hkept.trans hfinally⟩

theorem Extends.mem_of_marked {row : Notification} (hextends : tables.Extends after)
    (hrow : marked row ∈ tables.rows) : marked row ∈ after.rows := by
  obtain ⟨index, hindex⟩ := List.mem_iff_getElem?.mp hrow
  obtain ⟨found, hfound, hkept⟩ := hextends index _ hindex
  cases hkept.eq_of_marked
  exact List.mem_of_getElem? hfound

theorem extends_mark (tables : Tables) (chosen : Notification → Bool) :
    tables.Extends (tables.mark chosen) := by
  intro index row hrow
  refine ⟨if chosen row then marked row else row, ?_, ?_⟩
  · rw [mark, List.getElem?_map, hrow]
    rfl
  · split
    · exact .marked
    · exact .same

theorem extends_add (tables : Tables) (new : NewNotification) : tables.Extends (tables.add new) := by
  intro index row hrow
  refine ⟨row, ?_, .same⟩
  obtain ⟨hlt, -⟩ := List.getElem?_eq_some_iff.mp hrow
  rw [rows_add, List.getElem?_append_left hlt, hrow]

/-- An answer leaves the store, or marks rows, or adds the row that was to be inserted. -/
theorem answer_cases (tables : Tables) (statement : Statement) :
    (tables.answer statement).2 = tables ∨
      (∃ chosen, (tables.answer statement).2 = tables.mark chosen) ∨
      ∃ new, statement = .insert new ∧ (tables.answer statement).2 = tables.add new := by
  cases hclosed : tables.isClosed with
  | true =>
      left
      rw [answer, if_pos hclosed]
  | false =>
      cases statement with
      | insert new =>
          obtain ⟨given, hanswer, -⟩ | ⟨-, hanswer⟩ := answer_insert_cases tables new
          · exact .inl (congrArg Prod.snd hanswer)
          · exact .inr (.inr ⟨new, rfl, congrArg Prod.snd hanswer⟩)
      | setRead id => exact .inr (.inl ⟨_, congrArg Prod.snd (answer_of_open hclosed _)⟩)
      | setAllRead user => exact .inr (.inl ⟨_, congrArg Prod.snd (answer_of_open hclosed _)⟩)
      | _ => exact .inl (congrArg Prod.snd (answer_of_open hclosed _))

theorem extends_answer (tables : Tables) (statement : Statement) :
    tables.Extends (tables.answer statement).2 := by
  obtain hsame | ⟨chosen, hmarked⟩ | ⟨new, -, hadded⟩ := tables.answer_cases statement
  · rw [hsame]
    exact .refl tables
  · rw [hmarked]
    exact tables.extends_mark chosen
  · rw [hadded]
    exact tables.extends_add new

theorem isClosed_answer (tables : Tables) (statement : Statement) :
    (tables.answer statement).2.isClosed = tables.isClosed := by
  obtain hsame | ⟨chosen, hmarked⟩ | ⟨new, -, hadded⟩ := tables.answer_cases statement
  · rw [hsame]
  · rw [hmarked]
    rfl
  · rw [hadded]
    rfl

/-! Distinct ids. -/

/-- The ids of all rows, and those that the next so many rows get, are distinct. -/
def Supplied (tables : Tables) (count : Nat) : Prop :=
  (tables.rows.map Notification.id ++
    (List.range count).map fun offset => (tables.supply (tables.recorded + offset)).id).Nodup

variable {count : Nat}

theorem Supplied.keyed (hsupplied : tables.Supplied count) : tables.Keyed :=
  hsupplied.of_append_left

theorem Supplied.mono {fewer : Nat} (hsupplied : tables.Supplied count) (hfewer : fewer ≤ count) :
    tables.Supplied fewer := by
  apply List.Nodup.sublist _ hsupplied
  apply List.Sublist.append_left
  exact (List.range_sublist.mpr hfewer).map _

theorem Supplied.mark (hsupplied : tables.Supplied count) (chosen : Notification → Bool) :
    (tables.mark chosen).Supplied count := by
  rw [Supplied, ids_mark]
  exact hsupplied

/-- A new row gets the first of the ids. -/
theorem Supplied.add (hsupplied : tables.Supplied (count + 1)) (new : NewNotification) :
    (tables.add new).Supplied count := by
  rw [Supplied, List.range_succ_eq_map, List.map_cons, List.map_map] at hsupplied
  have hlater : (List.range count).map
        (fun offset => ((tables.add new).supply ((tables.add new).recorded + offset)).id) =
      (List.range count).map
        ((fun offset => (tables.supply (tables.recorded + offset)).id) ∘ Nat.succ) := by
    apply List.map_congr_left
    intro offset _
    exact congrArg (fun number => (tables.supply number).id) (Nat.succ_add_eq_add_succ _ offset)
  rw [Supplied, rows_add, List.map_append, List.append_assoc, hlater]
  exact hsupplied

theorem Supplied.insert (hsupplied : tables.Supplied (count + 1)) (new : NewNotification) :
    (tables.answer (.insert new)).2.Supplied count := by
  obtain hsame | ⟨chosen, hmarked⟩ | ⟨added, -, hadded⟩ := tables.answer_cases (.insert new)
  · rw [hsame]
    exact hsupplied.mono (Nat.le_succ count)
  · rw [hmarked]
    exact (hsupplied.mono (Nat.le_succ count)).mark chosen
  · rw [hadded]
    exact hsupplied.add added

theorem Supplied.answer {statement : Statement} (hsupplied : tables.Supplied count)
    (hother : ∀ new, statement ≠ .insert new) : (tables.answer statement).2.Supplied count := by
  obtain hsame | ⟨chosen, hmarked⟩ | ⟨new, hinsert, -⟩ := tables.answer_cases statement
  · rw [hsame]
    exact hsupplied
  · rw [hmarked]
    exact hsupplied.mark chosen
  · exact absurd hinsert (hother new)

end Tables

namespace Plan

/-- A plan that inserts at most so many rows, whatever the answers are. -/
inductive AddsWithin : Nat → Plan α → Prop
  | done (limit : Nat) (value : α) : AddsWithin limit (.done value)
  | insert {limit : Nat} {new : NewNotification} {next : Except Fault Nat → Plan α}
      (hnext : ∀ answer, AddsWithin limit (next answer)) :
      AddsWithin (limit + 1) (.step (.query (.insert new)) next)
  | query {limit : Nat} {statement : Statement} {next : Except Fault statement.Answer → Plan α}
      (hother : ∀ new, statement ≠ .insert new) (hnext : ∀ answer, AddsWithin limit (next answer)) :
      AddsWithin limit (.step (.query statement) next)

theorem AddsWithin.supplied_run {plan : Plan α} {tables : Tables} {limit count : Nat}
    (hadds : plan.AddsWithin limit) (hsupplied : tables.Supplied (limit + count)) :
    (plan.run Tables.serve tables).2.Supplied count := by
  induction hadds generalizing tables with
  | done limit value => exact hsupplied.mono (Nat.le_add_left count limit)
  | @insert limit new next hnext ih =>
      rw [Nat.add_right_comm] at hsupplied
      exact ih _ (hsupplied.insert new)
  | query hother hnext ih => exact ih _ (hsupplied.answer hother)

/-- No plan removes a row, or changes more of it than whether it is read. -/
theorem extends_run (plan : Plan α) (tables : Tables) :
    tables.Extends (plan.run Tables.serve tables).2 := by
  induction plan generalizing tables with
  | done value => exact .refl tables
  | step action next ih =>
      cases action with
      | query statement => exact (tables.extends_answer statement).trans (ih _ _)
      | publish event => exact ih _ _

theorem isClosed_run (plan : Plan α) (tables : Tables) :
    (plan.run Tables.serve tables).2.isClosed = tables.isClosed := by
  induction plan generalizing tables with
  | done value => rfl
  | step action next ih =>
      cases action with
      | query statement => exact (ih _ _).trans (tables.isClosed_answer statement)
      | publish event => exact ih _ _

end Plan

end Herald.Store
