import Herald.Proofs.Dispatch.Phases
import Herald.Proofs.Store.Tables
import Mathlib.Data.List.Perm.Basic

/-!
Races of dispatches on one store. Any number of callers take their steps in any order; each step is
one statement on the store, or one event handed to the channel, which may refuse it.
-/

namespace Herald.Dispatch

open Store (Plan Tables)
open Store.Tables (isAbout Distinct)

def concerns (user content : Identifier) (event : Event) : Bool :=
  event.recipientId? = some user && event.contentId? = some content

def Known (tables : Tables) (events : List Event) : Prop :=
  ∀ event ∈ events, ∀ user, event.recipientId? = some user → tables.hasUser user = true

structure Caller where
  event : Event
  plan : Plan (Except Failure Outcome)
  /-- The events it handed to the channel, whether or not the channel took them. -/
  published : List Event
  /-- The rows that its statements added. -/
  added : List Notification

namespace Caller

def start (event : Event) : Caller := ⟨event, Dispatch.plan event, [], []⟩

def step (tables : Tables) (taken : Bool) (caller : Caller) : Tables × Caller :=
  match caller.plan with
  | .done _ => (tables, caller)
  | .step (.publish event) next =>
    (tables, { caller with plan := next taken, published := caller.published ++ [event] })
  | .step (.query statement) next =>
    let (given, after) := tables.answer statement
    (after, { caller with
      plan := next given
      added := caller.added ++ after.rows.drop tables.rows.length })

def hasPublished (caller : Caller) : Bool := !caller.published.isEmpty

/-- The caller ended after handing its event to the channel once. -/
def Announced (caller : Caller) : Prop :=
  caller.published = [caller.event] ∧ ∃ taken, caller.plan = ended (handed taken)

/-- The caller ended without handing anything to the channel. -/
def Duplicate (caller : Caller) : Prop :=
  caller.published = [] ∧ caller.plan = ended .duplicate

end Caller

structure Race where
  tables : Tables
  callers : List Caller

structure Turn where
  caller : Nat
  /-- Whether the channel takes an event that is handed to it in this turn. -/
  taken : Bool

namespace Race

def start (tables : Tables) (events : List Event) : Race := ⟨tables, events.map Caller.start⟩

def step (race : Race) (turn : Turn) : Race :=
  match race.callers[turn.caller]? with
  | none => race
  | some caller =>
    let (tables, caller) := caller.step race.tables turn.taken
    ⟨tables, race.callers.set turn.caller caller⟩

def run (race : Race) (schedule : List Turn) : Race := schedule.foldl step race

def Finished (race : Race) : Prop :=
  ∀ caller ∈ race.callers, ∃ result, caller.plan = .done result

end Race

/-! What a caller has done by each phase. -/

def Gained (event : Event) (rows : List Notification) : Prop :=
  match NewNotification.ofEvent? event with
  | none => rows = []
  | some new => ∃ stamp : Store.Stamp, rows = [new.recorded stamp.id stamp.createdAt]

inductive Sound (tables : Tables) : Caller → Prop
  | finding {event : Event} {new : NewNotification}
      (hnew : NewNotification.ofEvent? event = some new) :
      Sound tables ⟨event, finding event new, [], []⟩
  | looking {event : Event} {new : NewNotification} {content : Identifier}
      (hnew : NewNotification.ofEvent? event = some new) (hcontent : new.content = some content) :
      Sound tables ⟨event, looking event new content, [], []⟩
  | inserting {event : Event} {new : NewNotification}
      (hnew : NewNotification.ofEvent? event = some new) :
      Sound tables ⟨event, inserting event new, [], []⟩
  | duplicate {event : Event} {new : NewNotification} {content : Identifier}
      (hnew : NewNotification.ofEvent? event = some new) (hcontent : new.content = some content)
      (hrow : tables.hasContent new.user content = true) :
      Sound tables ⟨event, ended .duplicate, [], []⟩
  | announcing {event : Event} {rows : List Notification} (hgained : Gained event rows) :
      Sound tables ⟨event, announcing event, [], rows⟩
  | announced {event : Event} {rows : List Notification} (hgained : Gained event rows)
      (taken : Bool) :
      Sound tables ⟨event, ended (handed taken), [event], rows⟩

theorem sound_start (tables : Tables) (event : Event) : Sound tables (Caller.start event) := by
  rw [Caller.start, plan_eq]
  cases hnew : NewNotification.ofEvent? event with
  | none =>
      refine .announcing ?_
      rw [Gained, hnew]
  | some new => exact .finding hnew

theorem Sound.mono {tables after : Tables} {caller : Caller} (hsound : Sound tables caller)
    (hrows : ∀ user content, tables.hasContent user content = true →
      after.hasContent user content = true) :
    Sound after caller := by
  cases hsound with
  | finding hnew => exact .finding hnew
  | looking hnew hcontent => exact .looking hnew hcontent
  | inserting hnew => exact .inserting hnew
  | duplicate hnew hcontent hrow => exact .duplicate hnew hcontent (hrows _ _ hrow)
  | announcing hgained => exact .announcing hgained
  | announced hgained taken => exact .announced hgained taken

structure Advance (tables : Tables) (caller : Caller) (after : Tables × Caller) : Prop where
  event : after.2.event = caller.event
  users : after.1.users = tables.users
  isClosed : after.1.isClosed = tables.isClosed
  gained : ∃ rows, after.1.rows = tables.rows ++ rows ∧ after.2.added = caller.added ++ rows
  distinct : Distinct tables.rows → Distinct after.1.rows
  sound : Sound after.1 after.2

namespace Advance

variable {tables : Tables} {event : Event} {new : NewNotification}
  {before after : Plan (Except Failure Outcome)} {published : List Event}
  {rows : List Notification}

theorem of_same_tables {publishedAfter : List Event}
    (hsound : Sound tables ⟨event, after, publishedAfter, rows⟩) :
    Advance tables ⟨event, before, published, rows⟩
      (tables, ⟨event, after, publishedAfter, rows⟩) where
  event := rfl
  users := rfl
  isClosed := rfl
  gained := ⟨[], (List.append_nil _).symm, (List.append_nil _).symm⟩
  distinct := id
  sound := hsound

theorem of_add (hnew : NewNotification.ofEvent? event = some new)
    (hfree : tables.collides new = false) :
    Advance tables ⟨event, before, [], []⟩
      (tables.add new, ⟨event, announcing event, [], [tables.nextRow new]⟩) where
  event := rfl
  users := rfl
  isClosed := rfl
  gained := ⟨[tables.nextRow new], rfl, rfl⟩
  distinct hdistinct := Store.Tables.distinct_add hdistinct hfree
  sound := by
    refine .announcing ?_
    rw [Gained, hnew]
    exact ⟨_, rfl⟩

end Advance

theorem Caller.step_query {tables after : Tables} {event : Event} {statement : Store.Statement}
    {next : Except Store.Fault statement.Answer → Plan (Except Failure Outcome)}
    {given : Except Store.Fault statement.Answer} {published : List Event}
    {added gained : List Notification} (taken : Bool)
    (hanswer : tables.answer statement = (given, after))
    (hgained : after.rows = tables.rows ++ gained) :
    Caller.step tables taken ⟨event, .step (.query statement) next, published, added⟩ =
      (after, ⟨event, next given, published, added ++ gained⟩) := by
  simp only [Caller.step, hanswer, hgained, List.drop_left]

theorem Caller.step_advance {tables : Tables} {caller : Caller} (taken : Bool)
    (hopen : tables.isClosed = false)
    (huser : ∀ new, NewNotification.ofEvent? caller.event = some new →
      tables.hasUser new.user = true)
    (hsound : Sound tables caller) : Advance tables caller (caller.step tables taken) := by
  cases hsound with
  | @finding event new hnew =>
      have hanswer : tables.answer (.findUser new.user) =
          (.ok (tables.users.filter (·.id = new.user)), tables) :=
        Store.Tables.answer_of_open hopen _
      rw [finding, Caller.step_query taken hanswer (List.append_nil _).symm]
      have hfound : (tables.users.filter (·.id = new.user)).isEmpty = false :=
        Store.Tables.isEmpty_filter_users (huser new hnew)
      simp only [hfound, Bool.false_eq_true, if_false, List.append_nil]
      rw [recording]
      cases hcontent : new.content with
      | none => exact .of_same_tables (.inserting hnew)
      | some content => exact .of_same_tables (.looking hnew hcontent)
  | @looking event new content hnew hcontent =>
      have hanswer : tables.answer (.findContent new.user content) =
          (.ok (tables.rows.filter (isAbout new.user content)), tables) :=
        Store.Tables.answer_of_open hopen _
      rw [looking, Caller.step_query taken hanswer (List.append_nil _).symm]
      simp only [List.append_nil]
      split
      case isTrue => exact .of_same_tables (.inserting hnew)
      case isFalse hrows =>
        refine .of_same_tables (.duplicate hnew hcontent ?_)
        exact Store.Tables.hasContent_of_filter_ne_nil hrows
  | @inserting event new hnew =>
      have hanswer := Store.Tables.answer_of_open hopen (.insert new)
      rw [Store.Tables.answerOpen] at hanswer
      cases hcollides : tables.collides new with
      | true =>
          rw [Store.Tables.insert_of_collides hcollides] at hanswer
          rw [inserting, Caller.step_query taken hanswer (List.append_nil _).symm]
          obtain ⟨content, hcontent, hrow⟩ := Store.Tables.collides_iff.mp hcollides
          exact .of_same_tables (.duplicate hnew hcontent hrow)
      | false =>
          rw [Store.Tables.insert_of_free hcollides (huser new hnew)] at hanswer
          rw [inserting, Caller.step_query taken hanswer Store.Tables.rows_add]
          exact .of_add hnew hcollides
  | duplicate hnew hcontent hrow => exact .of_same_tables (.duplicate hnew hcontent hrow)
  | announcing hgained => exact .of_same_tables (.announced hgained taken)
  | announced hgained taken => exact .of_same_tables (.announced hgained taken)

/-! What all steps of a race preserve. -/

theorem perm_flatMap_set {α β : Type} (f : α → List β) {l : List α} {index : Nat} {old new : α}
    {gained : List β} (hold : l[index]? = some old) (hgained : f new = f old ++ gained) :
    ((l.set index new).flatMap f).Perm (l.flatMap f ++ gained) := by
  induction l generalizing index with
  | nil => simp at hold
  | cons head l ih =>
      cases index with
      | zero =>
          obtain rfl : head = old := Option.some.inj hold
          rw [List.set_cons_zero, List.flatMap_cons, List.flatMap_cons, hgained,
            List.append_assoc, List.append_assoc]
          exact List.perm_append_comm.append_left (f head)
      | succ index =>
          rw [List.set_cons_succ, List.flatMap_cons, List.flatMap_cons, List.append_assoc]
          exact (ih hold).append_left (f head)

theorem map_set_of_eq {α β : Type} {f : α → β} {l : List α} {index : Nat} {old new : α}
    (hold : l[index]? = some old) (hnew : f new = f old) : (l.set index new).map f = l.map f := by
  obtain ⟨hindex, rfl⟩ := List.getElem?_eq_some_iff.mp hold
  rw [List.map_set, hnew, ← List.map_set, List.set_getElem_self]

structure Race.Inv (start : Tables) (events : List Event) (race : Race) : Prop where
  isOpen : race.tables.isClosed = false
  users : race.tables.users = start.users
  events : race.callers.map Caller.event = events
  distinct : Distinct race.tables.rows
  rows : race.tables.rows.Perm (start.rows ++ race.callers.flatMap Caller.added)
  sound : ∀ caller ∈ race.callers, Sound race.tables caller

section

variable {tables : Tables} {events : List Event}

theorem Race.inv_start (hopen : tables.isClosed = false) (hdistinct : Distinct tables.rows) :
    (Race.start tables events).Inv tables events where
  isOpen := hopen
  users := rfl
  events := by
    rw [Race.start, List.map_map]
    exact List.map_id events
  distinct := hdistinct
  rows := by
    have hadded : (events.map Caller.start).flatMap Caller.added = [] := by
      rw [List.flatMap_map, List.flatMap_eq_nil_iff]
      intro event _
      rfl
    rw [Race.start, hadded, List.append_nil]
  sound := by
    intro caller hcaller
    obtain ⟨event, _, rfl⟩ := List.mem_map.mp hcaller
    exact sound_start tables event

theorem Race.inv_advance {race : Race} {index : Nat} {caller : Caller} {after : Tables × Caller}
    (hinv : race.Inv tables events) (hcaller : race.callers[index]? = some caller)
    (hadvance : Advance race.tables caller after) :
    Race.Inv tables events ⟨after.1, race.callers.set index after.2⟩ := by
  obtain ⟨gained, hrows, hadded⟩ := hadvance.gained
  refine ⟨?_, ?_, ?_, hadvance.distinct hinv.distinct, ?_, ?_⟩
  · exact hadvance.isClosed.trans hinv.isOpen
  · exact hadvance.users.trans hinv.users
  · exact (map_set_of_eq hcaller hadvance.event).trans hinv.events
  · have hset := perm_flatMap_set Caller.added hcaller hadded
    change after.1.rows.Perm _
    rw [hrows]
    refine (hinv.rows.append_right gained).trans ?_
    rw [List.append_assoc]
    exact hset.symm.append_left tables.rows
  · intro other hother
    rcases List.mem_or_eq_of_mem_set hother with hold | rfl
    · refine (hinv.sound other hold).mono ?_
      intro user content hcontent
      exact Store.Tables.hasContent_of_rows_append hrows hcontent
    · exact hadvance.sound

theorem Race.inv_step {race : Race} (hknown : Known tables events)
    (hinv : race.Inv tables events) (turn : Turn) : (race.step turn).Inv tables events := by
  rw [Race.step]
  cases hcaller : race.callers[turn.caller]? with
  | none => exact hinv
  | some caller =>
      have hmem : caller ∈ race.callers := List.mem_of_getElem? hcaller
      have huser : ∀ new, NewNotification.ofEvent? caller.event = some new →
          race.tables.hasUser new.user = true := by
        intro new hnew
        have hevent : caller.event ∈ events := by
          rw [← hinv.events]
          exact List.mem_map_of_mem hmem
        rw [Tables.hasUser, hinv.users]
        exact hknown _ hevent _ (ofEvent?_eq_some hnew).1
      apply Race.inv_advance hinv hcaller
      exact Caller.step_advance turn.taken hinv.isOpen huser (hinv.sound caller hmem)

theorem Race.inv_run {race : Race} (hknown : Known tables events)
    (hinv : race.Inv tables events) (schedule : List Turn) :
    (race.run schedule).Inv tables events := by
  induction schedule generalizing race with
  | nil => exact hinv
  | cons turn schedule ih => exact ih (Race.inv_step hknown hinv turn)

/-! Races end: no caller takes more than four turns. -/

theorem Caller.step_endsWithin {caller : Caller} {limit : Nat} (taken : Bool)
    (hends : caller.plan.EndsWithin (limit + 1)) :
    (caller.step tables taken).2.plan.EndsWithin limit := by
  obtain ⟨event, plan, published, added⟩ := caller
  cases hends with
  | done _ value => exact .done limit value
  | @step _ action next hnext =>
      cases action with
      | query statement => exact hnext _
      | publish event => exact hnext _

/-- Whoever stands at a place after a turn stood there before it, or has just made its step. -/
theorem Race.callers_step {race : Race} {turn : Turn} {index : Nat} {caller : Caller}
    (hcaller : (race.step turn).callers[index]? = some caller) :
    (turn.caller = index ∧ ∃ old, race.callers[index]? = some old ∧
        caller = (old.step race.tables turn.taken).2) ∨
      (turn.caller ≠ index ∧ race.callers[index]? = some caller) := by
  simp only [Race.step] at hcaller
  by_cases hindex : turn.caller = index
  · refine .inl ⟨hindex, ?_⟩
    subst hindex
    cases hold : race.callers[turn.caller]? with
    | none =>
        simp only [hold] at hcaller
        nomatch hcaller
    | some old =>
        simp only [hold] at hcaller
        refine ⟨old, rfl, ?_⟩
        rw [List.getElem?_set_self (List.getElem?_eq_some_iff.mp hold).1] at hcaller
        exact (Option.some.inj hcaller).symm
  · refine .inr ⟨hindex, ?_⟩
    cases hold : race.callers[turn.caller]? with
    | none =>
        simp only [hold] at hcaller
        exact hcaller
    | some old =>
        simp only [hold] at hcaller
        rwa [List.getElem?_set_ne hindex] at hcaller

theorem Race.finished_of_endsWithin (schedule : List Turn) {race : Race}
    (hends : ∀ (index : Nat) (caller : Caller), race.callers[index]? = some caller →
      caller.plan.EndsWithin (schedule.countP (·.caller = index))) :
    (race.run schedule).Finished := by
  induction schedule generalizing race with
  | nil =>
      intro caller hcaller
      obtain ⟨index, hindex⟩ := List.getElem?_of_mem (l := race.callers) hcaller
      exact (hends index caller hindex).eq_done
  | cons turn schedule ih =>
      apply ih
      intro index caller hcaller
      rcases Race.callers_step hcaller with ⟨hindex, old, hold, rfl⟩ | ⟨hindex, hold⟩
      · apply Caller.step_endsWithin turn.taken
        have hends := hends index old hold
        rwa [List.countP_cons, if_pos (decide_eq_true hindex)] at hends
      · have hends := hends index caller hold
        rwa [List.countP_cons, if_neg (by rwa [decide_eq_true_eq])] at hends

theorem Race.finished_of_four_turns {tables : Tables} {events : List Event} {schedule : List Turn}
    (hturns : ∀ index < events.length, 4 ≤ schedule.countP (·.caller = index)) :
    ((Race.start tables events).run schedule).Finished := by
  apply Race.finished_of_endsWithin schedule
  intro index caller hcaller
  rw [Race.start, List.getElem?_map] at hcaller
  obtain ⟨event, hevent, rfl⟩ := Option.map_eq_some_iff.mp hcaller
  exact (plan_endsWithin event).mono (hturns index (List.getElem?_eq_some_iff.mp hevent).1)

end

end Herald.Dispatch
