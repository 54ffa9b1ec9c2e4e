import Herald.Proofs.Store.Growth

/-!
Calls on the history, by any users and in any order. The history only grows: a row stays as it was
recorded, and once it is read it stays so. What marking does is what the counts of unread rows say.
-/

namespace Herald.Store

variable {α : Type} {tables after : Tables} {user id : Identifier} {row : Notification}

namespace Attempt

theorem run_query {statement : Statement} {value : statement.Answer}
    (hanswer : tables.answer statement = (.ok value, after)) :
    (query statement).run.run Tables.serve tables = (.ok value, after) := by
  simp [query, Plan.run, Tables.serve, hanswer]

theorem run_query_bind {statement : Statement} {value : statement.Answer}
    (next : statement.Answer → Attempt α)
    (hanswer : tables.answer statement = (.ok value, after)) :
    (query statement >>= next).run.run Tables.serve tables =
      (next value).run.run Tables.serve after := by
  change Plan.run Tables.serve (ExceptT.bindCont next (match (tables.answer statement).1 with
    | .ok value => .ok value
    | .error fault => .error (.ofFault fault))) (tables.answer statement).2 = _
  rw [hanswer]
  rfl

end Attempt

namespace Tables

/-- The row of an id is the only one of the id. -/
theorem Keyed.split (hkeyed : tables.Keyed) (hrow : row ∈ tables.rows) :
    ∃ earlier later, tables.rows = earlier ++ row :: later ∧
      (∀ found ∈ earlier, found.id ≠ row.id) ∧ ∀ found ∈ later, found.id ≠ row.id := by
  obtain ⟨earlier, later, hrows⟩ := List.append_of_mem hrow
  refine ⟨earlier, later, hrows, ?_⟩
  rw [Keyed, hrows, List.map_append, List.map_cons, List.nodup_middle, List.nodup_cons,
    ← List.map_append] at hkeyed
  constructor
  · intro found hfound hid
    apply hkeyed.1
    exact List.mem_map.mpr ⟨found, List.mem_append_left later hfound, hid⟩
  · intro found hfound hid
    apply hkeyed.1
    exact List.mem_map.mpr ⟨found, List.mem_append_right earlier hfound, hid⟩

theorem Keyed.filter_id (hkeyed : tables.Keyed) (hrow : row ∈ tables.rows) :
    tables.rows.filter (·.id = row.id) = [row] := by
  obtain ⟨earlier, later, hrows, hearlier, hlater⟩ := hkeyed.split hrow
  have hnone : ∀ rows : List Notification, (∀ found ∈ rows, found.id ≠ row.id) →
      rows.filter (·.id = row.id) = [] := by
    intro rows hother
    simpa using hother
  simp [hrows, hnone earlier hearlier, hnone later hlater]

theorem Keyed.filter_owned (hkeyed : tables.Keyed) (hrow : row ∈ tables.rows) :
    tables.rows.filter (fun found => found.user = row.user && found.id = row.id) = [row] := by
  calc
    _ = (tables.rows.filter (·.id = row.id)).filter (·.user = row.user) := List.filter_filter.symm
    _ = [row] := by simp [hkeyed.filter_id hrow]

theorem marked_of_isRead (hread : row.isRead = true) : marked row = row := by
  simp [marked, ← hread]

theorem mem_mark_self (hrow : row ∈ tables.rows) :
    marked row ∈ (tables.mark (·.id = row.id)).rows := by
  apply List.mem_map.mpr
  exact ⟨row, hrow, if_pos (decide_eq_true rfl)⟩

theorem mark_of_isRead {chosen : Notification → Bool}
    (hread : ∀ row ∈ tables.rows, chosen row = true → row.isRead = true) :
    tables.mark chosen = tables := by
  have hkept : ∀ row ∈ tables.rows, (if chosen row then marked row else row) = row := by
    intro row hrow
    split
    case isTrue hchosen => exact marked_of_isRead (hread row hrow hchosen)
    case isFalse => rfl
  rw [mark, List.map_congr_left hkept, List.map_id']

/-- To mark the row of an id is to mark that row. -/
theorem Keyed.mark_id (hkeyed : tables.Keyed) (hrow : row ∈ tables.rows) :
    tables.mark (·.id = row.id) = { tables with
      rows := tables.rows.map fun found => if found = row then marked row else found } := by
  rw [Tables.mark]
  congr 1
  apply List.map_congr_left
  intro found hfound
  have hiff : found.id = row.id ↔ found = row :=
    ⟨fun hid => List.inj_on_of_nodup_map hkeyed hfound hrow hid, congrArg Notification.id⟩
  by_cases hsame : found = row
  · simp [hsame]
  · simp [hsame, hiff]

theorem map_mark_of_ne {rows : List Notification} (hother : ∀ found ∈ rows, found.id ≠ row.id) :
    rows.map (fun found => if found.id = row.id then marked found else found) = rows := by
  apply (List.map_congr_left fun found hfound => ?_).trans (List.map_id' rows)
  exact if_neg (hother found hfound)

theorem Keyed.rows_mark_id (hkeyed : tables.Keyed) (hrow : row ∈ tables.rows) :
    ∃ earlier later, tables.rows = earlier ++ row :: later ∧
      (tables.mark (·.id = row.id)).rows = earlier ++ marked row :: later := by
  obtain ⟨earlier, later, hrows, hearlier, hlater⟩ := hkeyed.split hrow
  refine ⟨earlier, later, hrows, ?_⟩
  simp [Tables.mark, hrows, map_mark_of_ne hearlier, map_mark_of_ne hlater]

/-- Marking an unread row takes one from the count of its user. -/
theorem Keyed.unreadOf_mark_id (hkeyed : tables.Keyed) (hrow : row ∈ tables.rows)
    (hunread : row.isRead = false) :
    tables.unreadOf row.user = (tables.mark (·.id = row.id)).unreadOf row.user + 1 := by
  obtain ⟨earlier, later, hrows, hmarked⟩ := hkeyed.rows_mark_id hrow
  have hbefore : isUnread row.user row = true := isUnread_iff.mpr ⟨rfl, hunread⟩
  have hafter : isUnread row.user (marked row) = false := by
    simp [isUnread, marked]
  simp [unreadOf, hrows, hmarked, hbefore, hafter]
  omega

theorem mark_isUnread (tables : Tables) (user : Identifier) :
    tables.mark (isUnread user) = { tables with rows := tables.rows.map fun row =>
      if row.user = user ∧ row.isRead = false then marked row else row } := by
  simp only [mark, isUnread_iff]

theorem unreadOf_mark_isUnread (tables : Tables) (user : Identifier) :
    (tables.mark (isUnread user)).unreadOf user = 0 := by
  have hread : ∀ row, isUnread user (if isUnread user row then marked row else row) = false := by
    intro row
    split
    case isTrue => simp [isUnread, marked]
    case isFalse hread => exact Bool.not_eq_true _ ▸ hread
  simp [unreadOf, mark, hread]

theorem unreadOf_eq_countP (tables : Tables) (user : Identifier) :
    tables.unreadOf user = tables.rows.countP fun row => row.user = user ∧ row.isRead = false := by
  rw [unreadOf, ← List.countP_eq_length_filter]
  apply List.countP_congr
  intro row _
  rw [isUnread_iff, decide_eq_true_eq]

end Tables

end Herald.Store

namespace Herald.History

open Store (Attempt Plan Tables)

variable {tables : Tables} {user id : Identifier} {row : Notification}

inductive Call
  | record (new : NewNotification)
  | list (user : Identifier) (number size : Option Nat)
  | countUnread (user : Identifier)
  | markRead (user id : Identifier)
  | markAllRead (user : Identifier)

namespace Call

@[reducible] def Answer : Call → Type
  | .record _ => Bool
  | .list .. => Page
  | .countUnread _ => Nat
  | .markRead .. => Notification
  | .markAllRead _ => Nat

def attempt : (call : Call) → Attempt call.Answer
  | .record new => recordIfAbsent new
  | .list user number size => History.list user number size
  | .countUnread user => History.countUnread user
  | .markRead user id => History.markRead user id
  | .markAllRead user => History.markAllRead user

/-- What a call gives on a store, and what it leaves of it. -/
def perform (call : Call) (tables : Tables) : Except Store.Failure call.Answer × Tables :=
  call.attempt.run.run Tables.serve tables

end Call

def after (tables : Tables) (calls : List Call) : Tables :=
  calls.foldl (fun tables call => (call.perform tables).2) tables

/-! How many rows a call inserts. -/

theorem addsWithin_insert (new : NewNotification) : Plan.AddsWithin 1 (insert new).run := by
  refine .insert fun answer => ?_
  cases answer with
  | ok affected => exact .done 0 _
  | error fault => cases fault <;> exact .done 0 _

theorem addsWithin_record (new : NewNotification) :
    Plan.AddsWithin 1 (recordIfAbsent new).run := by
  rw [recordIfAbsent]
  cases new.content with
  | none => exact addsWithin_insert new
  | some content =>
      refine .query nofun fun answer => ?_
      cases answer with
      | error fault => exact .done 1 _
      | ok rows =>
          cases rows with
          | nil => exact addsWithin_insert new
          | cons row rows => exact .done 1 _

theorem addsWithin_list (user : Identifier) (number size : Option Nat) :
    Plan.AddsWithin 1 (list user number size).run := by
  refine .query nofun fun answer => ?_
  cases answer with
  | error fault => exact .done 1 _
  | ok total =>
      change Plan.AddsWithin 1 (ite _ _ _ : Attempt Page).run
      split
      case isFalse => exact .done 1 _
      case isTrue =>
        refine .query nofun fun answer => ?_
        cases answer <;> exact .done 1 _

theorem addsWithin_markRead (user id : Identifier) :
    Plan.AddsWithin 1 (markRead user id).run := by
  refine .query nofun fun answer => ?_
  cases answer with
  | error fault => exact .done 1 _
  | ok rows =>
      cases rows with
      | nil => exact .done 1 _
      | cons row rows =>
          change Plan.AddsWithin 1 (ite _ _ _ : Attempt Notification).run
          split
          case isTrue => exact .done 1 _
          case isFalse =>
            refine .query nofun fun answer => ?_
            cases answer with
            | error fault => exact .done 1 _
            | ok updated => cases updated <;> exact .done 1 _

theorem Call.addsWithin (call : Call) : Plan.AddsWithin 1 call.attempt.run := by
  cases call with
  | record new => exact addsWithin_record new
  | list user number size => exact addsWithin_list user number size
  | countUnread user => exact .query nofun fun answer => .done 1 _
  | markRead user id => exact addsWithin_markRead user id
  | markAllRead user => exact .query nofun fun answer => .done 1 _

/-! Runs of calls. -/

theorem Call.extends_perform (call : Call) (tables : Tables) :
    tables.Extends (call.perform tables).2 :=
  Plan.extends_run call.attempt.run tables

theorem Call.supplied_perform (call : Call) {count : Nat} (hsupplied : tables.Supplied (count + 1)) :
    (call.perform tables).2.Supplied count := by
  apply call.addsWithin.supplied_run
  rwa [Nat.add_comm]

theorem extends_after (tables : Tables) (calls : List Call) :
    tables.Extends (after tables calls) := by
  induction calls generalizing tables with
  | nil => exact .refl tables
  | cons call calls ih => exact (call.extends_perform tables).trans (ih _)

theorem isClosed_after (tables : Tables) (calls : List Call) :
    (after tables calls).isClosed = tables.isClosed := by
  induction calls generalizing tables with
  | nil => rfl
  | cons call calls ih => exact (ih _).trans (Plan.isClosed_run call.attempt.run tables)

theorem supplied_after {count : Nat} (calls : List Call)
    (hsupplied : tables.Supplied (calls.length + count)) : (after tables calls).Supplied count := by
  induction calls generalizing tables with
  | nil => rwa [List.length_nil, Nat.zero_add] at hsupplied
  | cons call calls ih =>
      rw [List.length_cons, Nat.add_right_comm] at hsupplied
      exact ih (call.supplied_perform hsupplied)

/-! What calls give on an open store. -/

section Perform

variable (hopen : tables.isClosed = false)

include hopen

theorem perform_countUnread (user : Identifier) :
    (Call.countUnread user).perform tables = (.ok (tables.unreadOf user), tables) :=
  Attempt.run_query (Tables.answer_of_open hopen (.countUnread user))

theorem perform_markAllRead (user : Identifier) :
    (Call.markAllRead user).perform tables =
      (.ok (tables.unreadOf user), tables.mark (Tables.isUnread user)) :=
  Attempt.run_query (Tables.answer_of_open hopen (.setAllRead user))

theorem perform_markRead_of_missing (hmissing : ∀ row ∈ tables.rows, row.user = user → row.id ≠ id) :
    (Call.markRead user id).perform tables = (.error .notFound, tables) := by
  have hnone : tables.rows.filter (fun row => row.user = user && row.id = id) = [] := by
    simpa using hmissing
  have hanswer : tables.answer (.findOwned user id) = (.ok [], tables) := by
    rw [Tables.answer_of_open hopen, Tables.answerOpen, hnone]
  exact Attempt.run_query_bind _ hanswer

theorem answer_findOwned_of_mem (hkeyed : tables.Keyed) (hrow : row ∈ tables.rows) :
    tables.answer (.findOwned row.user row.id) = (.ok [row], tables) := by
  rw [Tables.answer_of_open hopen, Tables.answerOpen, hkeyed.filter_owned hrow]

theorem perform_markRead_of_isRead (hkeyed : tables.Keyed) (hrow : row ∈ tables.rows)
    (hread : row.isRead = true) :
    (Call.markRead row.user row.id).perform tables = (.ok row, tables) := by
  apply (Attempt.run_query_bind _ (answer_findOwned_of_mem hopen hkeyed hrow)).trans
  simp only [hread, if_true]
  rfl

theorem perform_markRead (hkeyed : tables.Keyed) (hrow : row ∈ tables.rows) :
    (Call.markRead row.user row.id).perform tables =
      (.ok (Tables.marked row), tables.mark (·.id = row.id)) := by
  cases hread : row.isRead with
  | true =>
      -- A row that is read is not written again; to write it again would change nothing.
      have hkept : tables.mark (·.id = row.id) = tables := by
        apply Tables.mark_of_isRead
        intro found hfound hid
        rwa [List.inj_on_of_nodup_map hkeyed hfound hrow (of_decide_eq_true hid)]
      rw [perform_markRead_of_isRead hopen hkeyed hrow hread, hkept,
        Tables.marked_of_isRead hread]
  | false =>
      have hmarked : tables.answer (.setRead row.id) =
          (.ok [Tables.marked row], tables.mark (·.id = row.id)) := by
        have hrows := (hkeyed.mark (·.id = row.id)).filter_id (Tables.mem_mark_self hrow)
        rw [Tables.answer_of_open hopen, Tables.answerOpen]
        exact congrArg (fun rows => (Except.ok rows, _)) hrows
      apply (Attempt.run_query_bind _ (answer_findOwned_of_mem hopen hkeyed hrow)).trans
      simp only [hread, Bool.false_eq_true, if_false]
      exact Attempt.run_query_bind _ hmarked

end Perform

/--
Whatever calls have reached a store that is open and gives out distinct ids, later calls remove no
row, and change no more of one than that it becomes read. Marking is told by its answers: a user's own
row is read from then on, no other row is touched, and the counts of unread rows follow.
-/
theorem rows_only_become_read (hopen : tables.isClosed = false) (calls more : List Call)
    (hsupplied : tables.Supplied (calls.length + more.length)) :
    let reached := after tables calls
    reached.Extends (after reached more) ∧
    (∀ user, (Call.countUnread user).perform reached =
      (.ok (reached.rows.countP fun row => row.user = user ∧ row.isRead = false), reached)) ∧
    (∀ user id, (∀ row ∈ reached.rows, row.user = user → row.id ≠ id) →
      (Call.markRead user id).perform reached = (.error .notFound, reached)) ∧
    (∀ row ∈ reached.rows,
      let next := { reached with rows := reached.rows.map fun found =>
        if found = row then { row with isRead := true } else found }
      (Call.markRead row.user row.id).perform reached = (.ok { row with isRead := true }, next) ∧
      (Call.markRead row.user row.id).perform (after next more) =
        (.ok { row with isRead := true }, after next more) ∧
      (row.isRead = false → ∃ count,
        (Call.countUnread row.user).perform reached = (.ok (count + 1), reached) ∧
        (Call.countUnread row.user).perform next = (.ok count, next))) ∧
    ∀ user,
      let next := { reached with rows := reached.rows.map fun row =>
        if row.user = user ∧ row.isRead = false then { row with isRead := true } else row }
      (Call.markAllRead user).perform reached =
        (((Call.countUnread user).perform reached).1, next) ∧
      (Call.countUnread user).perform next = (.ok 0, next) := by
  intro reached
  have hreached : reached.isClosed = false := (isClosed_after tables calls).trans hopen
  have hmore : reached.Supplied more.length := supplied_after calls hsupplied
  refine ⟨extends_after reached more, fun user => ?_,
    fun user id => perform_markRead_of_missing hreached, fun row hrow => ?_, fun user => ?_⟩
  · rw [perform_countUnread hreached, Tables.unreadOf_eq_countP]
  · intro next
    have hnext : reached.mark (·.id = row.id) = next := hmore.keyed.mark_id hrow
    have hopened : next.isClosed = false := hreached
    clear_value next
    subst hnext
    refine ⟨perform_markRead hreached hmore.keyed hrow, ?_, fun hunread => ?_⟩
    · -- Later calls leave the marked row in its place, so it is found there, and found read.
      have hlater := @supplied_after _ 0 more (hmore.mark (·.id = row.id))
      have hextends := extends_after (reached.mark (·.id = row.id)) more
      exact perform_markRead_of_isRead ((isClosed_after _ more).trans hopened) hlater.keyed
        (hextends.mem_of_marked (Tables.mem_mark_self hrow)) rfl
    · refine ⟨(reached.mark (·.id = row.id)).unreadOf row.user, ?_, perform_countUnread hopened _⟩
      rw [← hmore.keyed.unreadOf_mark_id hrow hunread]
      exact perform_countUnread hreached row.user
  · intro next
    have hnext : reached.mark (Tables.isUnread user) = next := reached.mark_isUnread user
    have hopened : next.isClosed = false := hreached
    clear_value next
    subst hnext
    constructor
    · rw [perform_countUnread hreached]
      exact perform_markAllRead hreached user
    · rw [perform_countUnread hopened, Tables.unreadOf_mark_isUnread]

def review : Notification :=
  NewNotification.recorded { user := .ofNat 1, type := .reviewApproved } (.ofNat 7) .epoch

def comment : NewNotification where
  user := .ofNat 1
  type := .commentCreated
  content := some (.ofNat 5)

def oneReview : Tables :=
  ⟨[⟨.ofNat 1, "reader", .epoch, .epoch⟩], [review], 0, fun index => ⟨.ofNat (8 + index), .epoch⟩,
    false⟩

theorem rows_only_become_read_of_comment :
    let reached := after oneReview [.record comment]
    let later := after reached [.list (.ofNat 1) none none, .markAllRead (.ofNat 1)]
    oneReview.isClosed = false ∧ oneReview.Supplied 3 ∧
      (Call.countUnread (.ofNat 1)).perform reached = (.ok 2, reached) ∧
      (∃ next, (Call.markRead (.ofNat 1) (.ofNat 7)).perform reached =
          (.ok { review with isRead := true }, next) ∧
        (Call.countUnread (.ofNat 1)).perform next = (.ok 1, next)) ∧
      reached.Extends later := by
  intro reached later
  have hsupplied : oneReview.Supplied 3 := by
    unfold Tables.Supplied
    decide
  obtain ⟨hextends, hcount, -, hmark, -⟩ := rows_only_become_read rfl [.record comment]
    [.list (.ofNat 1) none none, .markAllRead (.ofNat 1)] hsupplied
  have hreview : review ∈ reached.rows := List.mem_cons_self
  obtain ⟨hmarked, -, hfewer⟩ := hmark review hreview
  obtain ⟨count, hbefore, hafter⟩ := hfewer rfl
  have htwo : (Call.countUnread (.ofNat 1)).perform reached = (.ok 2, reached) := hcount (.ofNat 1)
  obtain ⟨hcounts, -⟩ := Prod.ext_iff.mp (hbefore.symm.trans htwo)
  obtain rfl : count = 1 := Nat.succ.inj (Except.ok.inj hcounts)
  exact ⟨rfl, hsupplied, htwo, ⟨_, hmarked, hafter⟩, hextends⟩

end Herald.History
