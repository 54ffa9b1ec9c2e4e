import Herald.Dispatch
import Herald.Proofs.Store.Plan

/-!
The phases of a dispatch: the plan written out as a tree, from the step that looks for the recipient
to the step that hands the event to the channel.
-/

namespace Herald.Dispatch

open Store (Plan Attempt)

/-! Which events are recorded: those addressed to a user, with the content they tell the user of. -/

theorem ofEvent?_eq_some {event : Event} {new : NewNotification}
    (hnew : NewNotification.ofEvent? event = some new) :
    event.recipientId? = some new.user ∧ event.contentId? = new.content := by
  cases event <;> cases hnew <;> exact ⟨rfl, rfl⟩

theorem ofEvent?_eq_none {event : Event} (hnone : NewNotification.ofEvent? event = none) :
    event.recipientId? = none ∧ event.contentId? = none := by
  cases event <;> first | exact ⟨rfl, rfl⟩ | cases hnone

theorem ofEvent?_isSome (event : Event) :
    (NewNotification.ofEvent? event).isSome = event.isPersisted := by
  cases event <;> rfl

theorem ofEvent?_of_everyone {event : Event} (heveryone : event.recipient = .everyone) :
    NewNotification.ofEvent? event = none := by
  cases event <;> first | rfl | cases heveryone

/-! The phases. -/

def ended (outcome : Outcome) : Plan (Except Failure Outcome) := .done (.ok outcome)

def failed (failure : Store.Failure) : Plan (Except Failure Outcome) :=
  .done (.error (.ofStore failure))

def handed (taken : Bool) : Outcome := if taken then .published else .publishFailed

def announcing (event : Event) : Plan (Except Failure Outcome) :=
  .step (.publish event) fun taken => ended (handed taken)

def inserting (event : Event) (new : NewNotification) : Plan (Except Failure Outcome) :=
  .step (.query (.insert new)) fun
    | .ok affected => if affected ≠ 0 then announcing event else ended .duplicate
    | .error fault =>
      if fault.isUniqueness then ended .duplicate else failed (.ofFault fault)

def looking (event : Event) (new : NewNotification) (content : Identifier) :
    Plan (Except Failure Outcome) :=
  .step (.query (.findContent new.user content)) fun
    | .ok rows => if rows.isEmpty then inserting event new else ended .duplicate
    | .error fault => failed (.ofFault fault)

def recording (event : Event) (new : NewNotification) : Plan (Except Failure Outcome) :=
  match new.content with
  | some content => looking event new content
  | none => inserting event new

def finding (event : Event) (new : NewNotification) : Plan (Except Failure Outcome) :=
  .step (.query (.findUser new.user)) fun
    | .ok found => if found.isEmpty then failed .notFound else recording event new
    | .error fault => failed (.ofFault fault)

def finished (attempt : Attempt Outcome) : Plan (Except Failure Outcome) :=
  attempt.run >>= fun result => .done (result.mapError Failure.ofStore)

theorem finished_announce (event : Event) : finished (announce event) = announcing event := by
  apply congrArg (Plan.step (.publish event))
  funext taken
  cases taken with
  | false => rfl
  | true => rfl

theorem finished_insert (event : Event) (new : NewNotification) :
    finished (do if ← History.insert new then announce event else pure .duplicate) =
      inserting event new := by
  apply congrArg (Plan.step (.query (.insert new)))
  funext answer
  cases answer with
  | ok affected =>
      cases affected with
      | zero => rfl
      | succ affected => exact finished_announce event
  | error fault =>
      cases fault <;> rfl

theorem finished_record (event : Event) (new : NewNotification) :
    finished (do if ← History.recordIfAbsent new then announce event else pure .duplicate) =
      recording event new := by
  rw [History.recordIfAbsent, recording]
  cases new.content with
  | none => exact finished_insert event new
  | some content =>
      apply congrArg (Plan.step (.query (.findContent new.user content)))
      funext answer
      cases answer with
      | error fault => rfl
      | ok rows =>
          cases rows with
          | nil => exact finished_insert event new
          | cons row rows => rfl

theorem plan_eq (event : Event) :
    plan event =
      match NewNotification.ofEvent? event with
      | none => announcing event
      | some new => finding event new := by
  change finished (attempt event) = _
  rw [attempt]
  cases NewNotification.ofEvent? event with
  | none => exact finished_announce event
  | some new =>
      apply congrArg (Plan.step (.query (.findUser new.user)))
      funext answer
      cases answer with
      | error fault => rfl
      | ok found =>
          cases found with
          | nil => rfl
          | cons user found => exact finished_record event new

theorem ended_endsWithin (limit : Nat) (outcome : Outcome) : (ended outcome).EndsWithin limit :=
  .done limit _

theorem failed_endsWithin (limit : Nat) (failure : Store.Failure) :
    (failed failure).EndsWithin limit :=
  .done limit _

theorem announcing_endsWithin (event : Event) : (announcing event).EndsWithin 1 :=
  .step fun taken => ended_endsWithin 0 (handed taken)

theorem inserting_endsWithin (event : Event) (new : NewNotification) :
    (inserting event new).EndsWithin 2 := by
  refine .step fun answer => ?_
  cases answer with
  | ok affected =>
      change Plan.EndsWithin 1 (if affected ≠ 0 then announcing event else ended .duplicate)
      split
      case isTrue => exact announcing_endsWithin event
      case isFalse => exact ended_endsWithin 1 _
  | error fault =>
      change Plan.EndsWithin 1 (if fault.isUniqueness then ended .duplicate else failed _)
      split
      case isTrue => exact ended_endsWithin 1 _
      case isFalse => exact failed_endsWithin 1 _

theorem looking_endsWithin (event : Event) (new : NewNotification) (content : Identifier) :
    (looking event new content).EndsWithin 3 := by
  refine .step fun answer => ?_
  cases answer with
  | ok rows =>
      change Plan.EndsWithin 2 (if rows.isEmpty then inserting event new else ended .duplicate)
      split
      case isTrue => exact inserting_endsWithin event new
      case isFalse => exact ended_endsWithin 2 _
  | error fault => exact failed_endsWithin 2 _

theorem recording_endsWithin (event : Event) (new : NewNotification) :
    (recording event new).EndsWithin 3 := by
  rw [recording]
  cases new.content with
  | none => exact (inserting_endsWithin event new).mono (by decide)
  | some content => exact looking_endsWithin event new content

theorem finding_endsWithin (event : Event) (new : NewNotification) :
    (finding event new).EndsWithin 4 := by
  refine .step fun answer => ?_
  cases answer with
  | ok found =>
      change Plan.EndsWithin 3 (if found.isEmpty then failed .notFound else recording event new)
      split
      case isTrue => exact failed_endsWithin 3 _
      case isFalse => exact recording_endsWithin event new
  | error fault => exact failed_endsWithin 3 _

/-- The recipient, the content, the row and the channel: a dispatch takes at most four steps. -/
theorem plan_endsWithin (event : Event) : (plan event).EndsWithin 4 := by
  rw [plan_eq]
  cases NewNotification.ofEvent? event with
  | none => exact (announcing_endsWithin event).mono (by decide)
  | some new => exact finding_endsWithin event new

end Herald.Dispatch
