import Herald.History.Basic
import Herald.Proofs.Store.Tables
import Mathlib.Data.List.Nodup

/-!
Whose rows plans touch. The plans of a user's history are about that user's rows alone: they give what
they would give on a store without the rows of others, and leave the rows of others as they are.
-/

namespace Herald.Store

variable {α β : Type} {tables after : Tables} {user other : Identifier}
  {chosen : Notification → Bool} {statement : Statement}

namespace Tables

/-- The store with the rows of one user alone. -/
def only (tables : Tables) (user : Identifier) : Tables :=
  { tables with rows := tables.rowsOf user }

/-- The id of a row is its primary key. -/
def Keyed (tables : Tables) : Prop := (tables.rows.map Notification.id).Nodup

theorem rowsOf_only (tables : Tables) (user : Identifier) :
    (tables.only user).rowsOf user = tables.rowsOf user := by
  rw [rowsOf, only, rowsOf, List.filter_filter]
  simp only [Bool.and_self]

theorem filter_rowsOf (howned : ∀ row ∈ tables.rows, chosen row = true → row.user = user) :
    (tables.rowsOf user).filter chosen = tables.rows.filter chosen := by
  rw [rowsOf, List.filter_filter]
  refine List.filter_congr fun row hrow => ?_
  cases hchosen : chosen row with
  | false => rw [Bool.false_and]
  | true => rw [Bool.true_and, decide_eq_true (howned row hrow hchosen)]

theorem isUnread_iff {row : Notification} :
    isUnread user row = true ↔ row.user = user ∧ row.isRead = false := by
  rw [isUnread, Bool.and_eq_true, decide_eq_true_eq, Bool.not_eq_true']

theorem unreadOf_only (tables : Tables) (user : Identifier) :
    (tables.only user).unreadOf user = tables.unreadOf user :=
  congrArg List.length (filter_rowsOf fun _ _ hrow => (isUnread_iff.mp hrow).1)

/-! Marking rows. -/

theorem id_mark_row (chosen : Notification → Bool) (row : Notification) :
    (if chosen row then marked row else row).id = row.id := by
  split
  · rfl
  · rfl

theorem user_mark_row (chosen : Notification → Bool) (row : Notification) :
    (if chosen row then marked row else row).user = row.user := by
  split
  · rfl
  · rfl

theorem rowsOf_mark (tables : Tables) (chosen : Notification → Bool) (user : Identifier) :
    (tables.mark chosen).rowsOf user =
      (tables.rowsOf user).map fun row => if chosen row then marked row else row := by
  rw [rowsOf, mark, List.filter_map, rowsOf]
  congr 2
  funext row
  rw [Function.comp_apply, user_mark_row]

theorem only_mark (tables : Tables) (chosen : Notification → Bool) (user : Identifier) :
    (tables.mark chosen).only user = (tables.only user).mark chosen := by
  rw [only, rowsOf_mark]
  rfl

theorem only_mark_of_foreign
    (hforeign : ∀ row ∈ tables.rows, chosen row = true → row.user ≠ other) :
    (tables.mark chosen).only other = tables.only other := by
  have hkept : ∀ row ∈ tables.rowsOf other, (if chosen row then marked row else row) = row := by
    intro row hrow
    obtain ⟨hmem, hother⟩ := List.mem_filter.mp hrow
    rw [if_neg fun hchosen => hforeign row hmem hchosen (of_decide_eq_true hother)]
  rw [only, rowsOf_mark, List.map_congr_left hkept, List.map_id']
  rfl

theorem mem_rows_mark {row : Notification} (hrow : row ∈ (tables.mark chosen).rows) :
    ∃ before ∈ tables.rows, row.id = before.id ∧ row.user = before.user := by
  obtain ⟨before, hbefore, rfl⟩ := List.mem_map.mp hrow
  exact ⟨before, hbefore, id_mark_row chosen before, user_mark_row chosen before⟩

theorem ids_mark (tables : Tables) (chosen : Notification → Bool) :
    (tables.mark chosen).rows.map Notification.id = tables.rows.map Notification.id := by
  rw [mark, List.map_map]
  exact List.map_congr_left fun row _ => id_mark_row chosen row

theorem Keyed.mark (hkeyed : tables.Keyed) (chosen : Notification → Bool) :
    (tables.mark chosen).Keyed := by
  rw [Keyed, ids_mark]
  exact hkeyed

end Tables

/-! Statements. -/

/-- The statement is about rows of the user alone. -/
inductive Statement.Within (user : Identifier) (tables : Tables) : Statement → Prop
  | countRows : Within user tables (.countRows user)
  | pageRows (offset limit : Nat) : Within user tables (.pageRows user offset limit)
  | countUnread : Within user tables (.countUnread user)
  | findOwned (id : Identifier) : Within user tables (.findOwned user id)
  /-- A row is marked by its id, whoever has it. -/
  | setRead {id : Identifier} (howned : ∀ row ∈ tables.rows, row.id = id → row.user = user) :
      Within user tables (.setRead id)
  | setAllRead : Within user tables (.setAllRead user)

namespace Statement.Within

theorem answerOpen_only (hwithin : statement.Within user tables) :
    (tables.only user).answerOpen statement =
      ((tables.answerOpen statement).1, (tables.answerOpen statement).2.only user) := by
  cases hwithin with
  | countRows => rw [Tables.answerOpen, Tables.answerOpen, Tables.rowsOf_only]
  | pageRows offset limit =>
      rw [Tables.answerOpen, Tables.answerOpen, Tables.history, Tables.rowsOf_only, Tables.history]
  | countUnread => rw [Tables.answerOpen, Tables.answerOpen, Tables.unreadOf_only]
  | findOwned id =>
      have hfound : (tables.only user).rows.filter (fun row => row.user = user && row.id = id) =
          tables.rows.filter (fun row => row.user = user && row.id = id) :=
        Tables.filter_rowsOf fun _ _ hrow => of_decide_eq_true (Bool.and_eq_true_iff.mp hrow).1
      rw [Tables.answerOpen, Tables.answerOpen, hfound]
  | @setRead id howned =>
      have hfound : ((tables.mark (·.id = id)).only user).rows.filter (·.id = id) =
          (tables.mark (·.id = id)).rows.filter (·.id = id) := by
        refine Tables.filter_rowsOf fun row hrow hid => ?_
        obtain ⟨before, hbefore, hsame, huser⟩ := Tables.mem_rows_mark hrow
        rw [huser]
        exact howned before hbefore (hsame.symm.trans (of_decide_eq_true hid))
      rw [Tables.answerOpen, Tables.answerOpen, ← Tables.only_mark]
      simp only [hfound]
  | setAllRead =>
      rw [Tables.answerOpen, Tables.answerOpen, Tables.unreadOf_only, Tables.only_mark]

/-- A statement about a user's rows does to them what it does when there are no others. -/
theorem answer_only (hwithin : statement.Within user tables) :
    (tables.only user).answer statement =
      ((tables.answer statement).1, (tables.answer statement).2.only user) := by
  cases hclosed : tables.isClosed with
  | true =>
      have honly : (tables.only user).isClosed = true := hclosed
      rw [Tables.answer, if_pos honly, Tables.answer, if_pos hclosed]
  | false =>
      have honly : (tables.only user).isClosed = false := hclosed
      rw [Tables.answer_of_open honly, Tables.answer_of_open hclosed, hwithin.answerOpen_only]

/-- A statement about a user's rows marks some of them at most. -/
theorem answer_eq (hwithin : statement.Within user tables) :
    ∃ chosen : Notification → Bool,
      (∀ row ∈ tables.rows, chosen row = true → row.user = user) ∧
        (tables.answer statement).2 = tables.mark chosen := by
  have hnothing : ∃ chosen : Notification → Bool,
      (∀ row ∈ tables.rows, chosen row = true → row.user = user) ∧ tables = tables.mark chosen := by
    refine ⟨fun _ => false, fun _ _ hfalse => absurd hfalse Bool.false_ne_true, ?_⟩
    simp only [Tables.mark, Bool.false_eq_true, if_false, List.map_id']
  cases hclosed : tables.isClosed with
  | true =>
      rw [Tables.answer, if_pos hclosed]
      exact hnothing
  | false =>
      rw [Tables.answer_of_open hclosed]
      cases hwithin with
      | setRead howned =>
          exact ⟨_, fun row hrow hid => howned row hrow (of_decide_eq_true hid), rfl⟩
      | setAllRead => exact ⟨_, fun _ _ hrow => (Tables.isUnread_iff.mp hrow).1, rfl⟩
      | _ => exact hnothing

theorem only_answer_of_ne (hwithin : statement.Within user tables) (hother : other ≠ user) :
    (tables.answer statement).2.only other = tables.only other := by
  obtain ⟨chosen, howned, hanswer⟩ := hwithin.answer_eq
  rw [hanswer]
  refine Tables.only_mark_of_foreign fun row hrow hchosen => ?_
  rw [howned row hrow hchosen]
  exact hother.symm

theorem keyed_answer (hwithin : statement.Within user tables) (hkeyed : tables.Keyed) :
    (tables.answer statement).2.Keyed := by
  obtain ⟨chosen, _, hanswer⟩ := hwithin.answer_eq
  rw [hanswer]
  exact hkeyed.mark chosen

end Statement.Within

/-! Plans. -/

/-- Answers a plan from a store alone; its channel takes nothing. -/
def Tables.serve (tables : Tables) : (action : Action) → action.Answer × Tables
  | .query statement => tables.answer statement
  | .publish _ => (false, tables)

namespace Plan

/-- Every statement of the plan is about rows of the user alone, when it is its turn. -/
inductive Within (user : Identifier) : Tables → Plan α → Prop
  | done (tables : Tables) (value : α) : Within user tables (.done value)
  | query {tables : Tables} {statement : Statement}
      {next : Except Fault statement.Answer → Plan α} (hstatement : statement.Within user tables)
      (hnext : Within user (tables.answer statement).2 (next (tables.answer statement).1)) :
      Within user tables (.step (.query statement) next)

variable {plan : Plan α}

theorem Within.bind {next : α → Plan β} (hwithin : plan.Within user tables)
    (hnext : ∀ value after, (next value).Within user after) :
    (plan.bind next).Within user tables := by
  induction hwithin with
  | done tables value => exact hnext value tables
  | query hstatement _ ih => exact .query hstatement ih

/-- A plan about a user's rows gives what it gives when there are no others. -/
theorem Within.run_only (hwithin : plan.Within user tables) :
    plan.run Tables.serve (tables.only user) =
      ((plan.run Tables.serve tables).1, (plan.run Tables.serve tables).2.only user) := by
  induction hwithin with
  | done tables value => rfl
  | @query tables statement next hstatement _ ih =>
      rw [run, run, Tables.serve, Tables.serve, hstatement.answer_only]
      exact ih

theorem Within.only_run_of_ne (hwithin : plan.Within user tables) (hother : other ≠ user) :
    (plan.run Tables.serve tables).2.only other = tables.only other := by
  induction hwithin with
  | done tables value => rfl
  | query hstatement _ ih => exact ih.trans (hstatement.only_answer_of_ne hother)

theorem Within.keyed_run (hwithin : plan.Within user tables) (hkeyed : tables.Keyed) :
    (plan.run Tables.serve tables).2.Keyed := by
  induction hwithin with
  | done tables value => exact hkeyed
  | query hstatement _ ih => exact ih (hstatement.keyed_answer hkeyed)

/-! Attempts. -/

theorem Within.attempt (hstatement : statement.Within user tables) :
    Within user tables (Attempt.query statement).run :=
  .query hstatement (.done _ _)

/-- What follows a statement is only of interest if it has an answer. -/
theorem Within.attempt_bind {next : statement.Answer → Attempt α}
    (hstatement : statement.Within user tables)
    (hnext : ∀ value after, tables.answer statement = (.ok value, after) →
      Within user after (next value).run) :
    Within user tables (Attempt.query statement >>= next).run := by
  refine .query hstatement ?_
  cases hanswer : tables.answer statement with
  | mk given after =>
      cases given with
      | error fault => exact .done after _
      | ok value => exact hnext value after hanswer

end Plan

end Herald.Store

namespace Herald.History

open Store (Attempt Plan Statement Tables)

variable {tables : Tables}

/-! The plans of a user's history. -/

theorem within_list (user : Identifier) (number size : Option Nat) (tables : Tables) :
    Plan.Within user tables (list user number size).run := by
  refine Plan.Within.attempt_bind .countRows fun total after _ => ?_
  split
  case isTrue => exact Plan.Within.attempt_bind (.pageRows _ _) fun items _ _ => .done _ _
  case isFalse => exact .done _ _

theorem within_countUnread (user : Identifier) (tables : Tables) :
    Plan.Within user tables (countUnread user).run :=
  Plan.Within.attempt .countUnread

theorem within_markAllRead (user : Identifier) (tables : Tables) :
    Plan.Within user tables (markAllRead user).run :=
  Plan.Within.attempt .setAllRead

/-- What looking for a row of a user finds, and that it changes nothing. -/
theorem answer_findOwned {user id : Identifier} {rows : List Notification} {after : Tables}
    (hanswer : tables.answer (.findOwned user id) = (.ok rows, after)) :
    after = tables ∧ ∀ row ∈ rows, row ∈ tables.rows ∧ row.user = user ∧ row.id = id := by
  cases hclosed : tables.isClosed with
  | true =>
      rw [Tables.answer, if_pos hclosed] at hanswer
      cases hanswer
  | false =>
      rw [Tables.answer_of_open hclosed] at hanswer
      cases hanswer
      refine ⟨rfl, fun row hrow => ?_⟩
      obtain ⟨hmem, hfound⟩ := List.mem_filter.mp hrow
      obtain ⟨huser, hid⟩ := Bool.and_eq_true_iff.mp hfound
      exact ⟨hmem, of_decide_eq_true huser, of_decide_eq_true hid⟩

/-- The row to be marked was found among the user's own, and no other one has its id. -/
theorem within_markRead (user id : Identifier) (hkeyed : tables.Keyed) :
    Plan.Within user tables (markRead user id).run := by
  refine Plan.Within.attempt_bind (.findOwned id) fun rows after hanswer => ?_
  obtain ⟨rfl, hrows⟩ := answer_findOwned hanswer
  cases rows with
  | nil => exact .done _ _
  | cons row rest =>
      obtain ⟨hmem, huser, hid⟩ := hrows row List.mem_cons_self
      change Plan.Within user _ (ite _ _ _ : Attempt Notification).run
      split
      case isTrue => exact .done _ _
      case isFalse =>
        have howned : ∀ other ∈ after.rows, other.id = id → other.user = user := by
          intro other hother hsame
          rw [List.inj_on_of_nodup_map hkeyed hother hmem (hsame.trans hid.symm), huser]
        refine Plan.Within.attempt_bind (.setRead howned) fun updated _ _ => ?_
        cases updated with
        | nil => exact .done _ _
        | cons row rest => exact .done _ _

end Herald.History
