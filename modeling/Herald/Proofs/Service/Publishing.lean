import Herald.Proofs.Dispatch.Phases
import Herald.Proofs.Store.Tables
import Herald.Proofs.UnitOfWork
import Herald.Service.Work

/-!
What publishing does to a service. A dispatch either leaves the service as it is, or adds the row of
its event, unless the event is for everyone, and then hands the event to the channel.
-/

namespace Herald.Service

open Store (Plan Statement Tables)
open Dispatch (announcing inserting looking recording finding ended failed)

variable {service : Service} {event : Event} {new : NewNotification}

/-- The service once an event was handed to the channel. -/
def announced (service : Service) (event : Event) : Service := (service.answer (.publish event)).2

/-- The service once the row of a notification was added. -/
def withRow (service : Service) (new : NewNotification) : Service :=
  { service with tables := service.tables.add new }

def afterPlan {α : Type} (plan : Plan α) (service : Service) : Service :=
  ((perform plan).run service).2

def dispatched (service : Service) (event : Event) : Service :=
  ((dispatch event).run service).2

/-! Handing events to the channel. -/

theorem announced_of_refused (hrefuses : service.takesEvents = false) (event : Event) :
    service.announced event = service := by
  rw [announced, answer, if_neg (by rw [hrefuses]; exact Bool.false_ne_true)]

theorem tables_announced (service : Service) (event : Event) :
    (service.announced event).tables = service.tables := by
  rw [announced, answer]
  split
  · rfl
  · rfl

theorem manager_announced (service : Service) (event : Event) :
    (service.announced event).manager = service.manager := by
  rw [announced, answer]
  split
  · rfl
  · rfl

/-! Plans. -/

theorem afterPlan_query {α : Type} (statement : Statement)
    (next : Except Store.Fault statement.Answer → Plan α) (service : Service) :
    afterPlan (.step (.query statement) next) service =
      afterPlan (next (service.tables.answer statement).1)
        { service with tables := (service.tables.answer statement).2 } :=
  rfl

theorem afterPlan_announcing (event : Event) (service : Service) :
    afterPlan (announcing event) service = service.announced event :=
  rfl

theorem tables_answer_findUser (tables : Tables) (user : Identifier) :
    (tables.answer (.findUser user)).2 = tables := by
  rw [Tables.answer]
  split
  · rfl
  · rfl

theorem tables_answer_findContent (tables : Tables) (user content : Identifier) :
    (tables.answer (.findContent user content)).2 = tables := by
  rw [Tables.answer]
  split
  · rfl
  · rfl

/-! The phases of a dispatch. -/

/-- The dispatch left the service, or added the row and handed the event to the channel. -/
def Settled (service : Service) (event : Event) (new : NewNotification) (after : Service) : Prop :=
  after = service ∨
    service.tables.collides new = false ∧ after = (service.withRow new).announced event

theorem settled_inserting (event : Event) (new : NewNotification) (service : Service) :
    Settled service event new (afterPlan (inserting event new) service) := by
  rw [inserting, afterPlan_query]
  rcases Tables.answer_insert_cases service.tables new with ⟨given, hanswer, hnone⟩ | ⟨hfree, hanswer⟩
  · rw [hanswer]
    left
    cases given with
    | ok affected =>
        rw [hnone affected rfl]
        rfl
    | error fault =>
        cases fault <;> rfl
  · rw [hanswer]
    exact .inr ⟨hfree, rfl⟩

theorem settled_looking (event : Event) (new : NewNotification) (content : Identifier)
    (service : Service) :
    Settled service event new (afterPlan (looking event new content) service) := by
  rw [looking, afterPlan_query, tables_answer_findContent]
  cases (service.tables.answer (.findContent new.user content)).1 with
  | error fault => exact .inl rfl
  | ok rows =>
      cases rows with
      | nil => exact settled_inserting event new service
      | cons row rows => exact .inl rfl

theorem settled_finding (event : Event) (new : NewNotification) (service : Service) :
    Settled service event new (afterPlan (finding event new) service) := by
  rw [finding, afterPlan_query, tables_answer_findUser]
  cases (service.tables.answer (.findUser new.user)).1 with
  | error fault => exact .inl rfl
  | ok found =>
      cases found with
      | nil => exact .inl rfl
      | cons user found =>
          change Settled service event new (afterPlan (recording event new) service)
          rw [recording]
          cases new.content with
          | none => exact settled_inserting event new service
          | some content => exact settled_looking event new content service

theorem dispatched_of_none (hnone : NewNotification.ofEvent? event = none) (service : Service) :
    service.dispatched event = service.announced event := by
  have hplan := Dispatch.plan_eq event
  rw [hnone] at hplan
  rw [dispatched, dispatch, hplan]
  exact afterPlan_announcing event service

theorem settled_dispatched (hnew : NewNotification.ofEvent? event = some new)
    (service : Service) : Settled service event new (service.dispatched event) := by
  have hplan := Dispatch.plan_eq event
  rw [hnew] at hplan
  rw [dispatched, dispatch, hplan]
  exact settled_finding event new service

/-! Publishing and transactions. -/

theorem manager_dispatched (service : Service) (event : Event) :
    (service.dispatched event).manager = service.manager := by
  cases hnew : NewNotification.ofEvent? event with
  | none => rw [dispatched_of_none hnew, manager_announced]
  | some new =>
      rcases settled_dispatched hnew service with hsame | ⟨_, hadded⟩
      · rw [hsame]
      · rw [hadded, manager_announced]
        rfl

theorem manager_foldl_dispatched (events : List Event) (service : Service) :
    (events.foldl dispatched service).manager = service.manager := by
  induction events generalizing service with
  | nil => rfl
  | cons event events ih => rw [List.foldl_cons, ih, manager_dispatched]

theorem rows_of_tables_eq {after : Service} (htables : after.tables = service.tables) :
    service.tables.rows <+: after.tables.rows :=
  ⟨[], by rw [List.append_nil, htables]⟩

theorem rows_dispatched (service : Service) (event : Event) :
    service.tables.rows <+: (service.dispatched event).tables.rows := by
  cases hnew : NewNotification.ofEvent? event with
  | none =>
      apply rows_of_tables_eq
      rw [dispatched_of_none hnew, tables_announced]
  | some new =>
      rcases settled_dispatched hnew service with hsame | ⟨_, hadded⟩
      · exact rows_of_tables_eq (congrArg Service.tables hsame)
      · rw [hadded, tables_announced]
        exact List.prefix_append _ _

theorem rows_foldl_dispatched (events : List Event) (service : Service) :
    service.tables.rows <+: (events.foldl dispatched service).tables.rows := by
  induction events generalizing service with
  | nil => exact List.prefix_refl _
  | cons event events ih => exact (rows_dispatched service event).trans (ih _)

theorem publish_run (events : List Event) (service : Service) :
    ((publish events).run service).2 = events.foldl dispatched service := by
  induction events generalizing service with
  | nil => rfl
  | cons event events ih => exact ih _

/-- A transaction leaves the service, or publishes what its work staged on what it left. -/
theorem transact_cases (deeds : List Deed) (service : Service) :
    ((transact deeds).run service).2 = service ∨
      ((transact deeds).run service).2 =
        (work deeds 0 .empty service).pending.events.foldl dispatched
          (work deeds 0 .empty service).state := by
  rw [transact, UnitOfWork.transact_run]
  split
  · exact .inl rfl
  · exact .inl rfl
  · exact .inl rfl
  · exact .inr (publish_run ..)

theorem rows_addUser {tables after : Tables} {user : User}
    (hadded : tables.addUser user = .ok after) : after.rows = tables.rows := by
  rw [Tables.addUser] at hadded
  split at hadded
  · nomatch hadded
  · rw [← Except.ok.inj hadded]

theorem rows_addRow {tables after : Tables} {row : Notification}
    (hadded : tables.addRow row = .ok after) : after.rows = tables.rows ++ [row] := by
  rw [Tables.addRow] at hadded
  split at hadded
  · nomatch hadded
  · rw [← Except.ok.inj hadded]

/-- Work changes the store only, and only adds rows to it. -/
theorem state_work (deeds : List Deed) (count : Nat) (pending : Pending) (service : Service) :
    ∃ tables : Tables, (work deeds count pending service).state = { service with tables } ∧
      service.tables.rows <+: tables.rows := by
  induction deeds generalizing count pending service with
  | nil => exact ⟨service.tables, rfl, List.prefix_refl _⟩
  | cons deed deeds ih =>
      cases deed with
      | stage event => exact ih (count + 1) (pending.stage event) service
      | fail kind => exact ⟨service.tables, rfl, List.prefix_refl _⟩
      | addUser user =>
          rw [work]
          cases hadded : service.tables.addUser user with
          | error fault => exact ⟨service.tables, rfl, List.prefix_refl _⟩
          | ok tables =>
              obtain ⟨after, hstate, hprefix⟩ := ih (count + 1) pending { service with tables }
              refine ⟨after, hstate, ?_⟩
              rw [← rows_addUser hadded]
              exact hprefix
      | addRow row =>
          rw [work]
          cases hadded : service.tables.addRow row with
          | error fault => exact ⟨service.tables, rfl, List.prefix_refl _⟩
          | ok tables =>
              obtain ⟨after, hstate, hprefix⟩ := ih (count + 1) pending { service with tables }
              refine ⟨after, hstate, List.IsPrefix.trans ?_ hprefix⟩
              exact rows_addRow hadded ▸ List.prefix_append _ _

theorem manager_transact (deeds : List Deed) (service : Service) :
    ((transact deeds).run service).2.manager = service.manager := by
  rcases transact_cases deeds service with hsame | hpublished
  · rw [hsame]
  · obtain ⟨tables, hstate, _⟩ := state_work deeds 0 .empty service
    rw [hpublished, manager_foldl_dispatched, hstate]

theorem rows_transact (deeds : List Deed) (service : Service) :
    service.tables.rows <+: ((transact deeds).run service).2.tables.rows := by
  rcases transact_cases deeds service with hsame | hpublished
  · exact rows_of_tables_eq (congrArg Service.tables hsame)
  · obtain ⟨tables, hstate, hrows⟩ := state_work deeds 0 .empty service
    rw [hpublished]
    refine List.IsPrefix.trans ?_ (rows_foldl_dispatched ..)
    rw [hstate]
    exact hrows

end Herald.Service
