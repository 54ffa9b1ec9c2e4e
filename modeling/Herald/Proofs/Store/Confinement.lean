import Herald.Proofs.Store.Ownership

/-!
The statements that a plan puts to the store, each with the store as it finds it. Those of a plan about
one user's rows give, count and change the rows of that user and no others.
-/

namespace Herald.Store

variable {α : Type} {user other : Identifier} {tables : Tables} {statement : Statement}

/-- The rows in an answer. -/
def Statement.rowsIn : (statement : Statement) → statement.Answer → List Notification
  | .findContent .., rows => rows
  | .pageRows .., rows => rows
  | .findOwned .., rows => rows
  | .setRead _, rows => rows
  | .findUser _, _ | .insert _, _ | .countRows _, _ | .countUnread _, _ | .setAllRead _, _ => []

/-- Whether all that a statement gives, counts and changes is of one user. -/
structure Statement.Confined (user : Identifier) (tables : Tables) (statement : Statement) : Prop where
  given : ∀ value, (tables.answer statement).1 = .ok value →
    ∀ row ∈ statement.rowsIn value, row.user = user
  counted : (tables.answer statement).1 = ((tables.only user).answer statement).1
  changed : ∀ other, other ≠ user →
    (tables.answer statement).2.rowsOf other = tables.rowsOf other

theorem Tables.Keyed.only (hkeyed : tables.Keyed) (user : Identifier) : (tables.only user).Keyed :=
  List.Nodup.sublist (List.Sublist.map _ List.filter_sublist) hkeyed

theorem Tables.user_of_mem_history {row : Notification} (hrow : row ∈ tables.history user) :
    row.user = user := by
  rw [history, List.mem_mergeSort] at hrow
  exact of_decide_eq_true (List.mem_filter.mp hrow).2

theorem Statement.Within.user_of_mem_rowsIn (hwithin : statement.Within user tables)
    {value : statement.Answer} (hanswer : (tables.answer statement).1 = .ok value)
    {row : Notification} (hrow : row ∈ statement.rowsIn value) : row.user = user := by
  cases hclosed : tables.isClosed with
  | true =>
      rw [Tables.answer, if_pos hclosed] at hanswer
      cases hanswer
  | false =>
      rw [Tables.answer_of_open hclosed] at hanswer
      cases hwithin with
      | pageRows offset limit =>
          cases hanswer
          exact Tables.user_of_mem_history (List.mem_of_mem_drop (List.mem_of_mem_take hrow))
      | findOwned id =>
          cases hanswer
          have hfound := (List.mem_filter.mp hrow).2
          exact of_decide_eq_true (Bool.and_eq_true_iff.mp hfound).1
      | setRead howned =>
          cases hanswer
          obtain ⟨hmem, hid⟩ := List.mem_filter.mp hrow
          obtain ⟨before, hbefore, hsame, huser⟩ := Tables.mem_rows_mark hmem
          rw [huser]
          exact howned before hbefore (hsame.symm.trans (of_decide_eq_true hid))
      | _ => exact absurd hrow List.not_mem_nil

theorem Statement.Within.confined (hwithin : statement.Within user tables) :
    statement.Confined user tables where
  given _ hanswer _ hrow := hwithin.user_of_mem_rowsIn hanswer hrow
  counted := by rw [hwithin.answer_only]
  changed _ hother := congrArg Tables.rows (hwithin.only_answer_of_ne hother)

namespace Plan

/-- What a plan asks of a store: each statement, and the store it is put to. -/
def asked : Plan α → Tables → List (Tables × Statement)
  | .done _, _ => []
  | .step (.query statement) next, tables =>
    (tables, statement) ::
      (next (tables.answer statement).1).asked (tables.answer statement).2
  | .step (.publish _) next, tables => (next false).asked tables

theorem Within.confined_asked {plan : Plan α} (hwithin : plan.Within user tables) :
    ∀ asking ∈ plan.asked tables, asking.2.Confined user asking.1 := by
  induction hwithin with
  | done tables value => exact fun _ hasking => absurd hasking List.not_mem_nil
  | query hstatement _ ih =>
      intro asking hasking
      rw [asked, List.mem_cons] at hasking
      rcases hasking with rfl | hlater
      · exact hstatement.confined
      · exact ih asking hlater

end Plan

end Herald.Store
