import Herald.Proofs.Dispatch.Phases
import Herald.Service.Basic

/-!
Dispatches on a store that may answer anything. The statements of a dispatch are put in order, up to
the first answer that does not let it go on, and that answer decides how it ends. An event is handed
to the channel once, after all answers have let its dispatch go on.
-/

namespace Herald.Dispatch

open Store (Action Fault Plan Statement)

/-! The course of a dispatch. -/

/-- The statements that look before a row is inserted. -/
def lookups (new : NewNotification) : List Statement :=
  .findUser new.user :: (new.content.map (.findContent new.user)).toList

/-- The statements of a dispatch in their order; an event for everyone needs none. -/
def course (event : Event) : List Statement :=
  match NewNotification.ofEvent? event with
  | none => []
  | some new => lookups new ++ [.insert new]

/-- Whether a dispatch goes on: the user was found, the content was not, the row was added. -/
def passes : (statement : Statement) → Except Fault statement.Answer → Bool
  | .findUser _, .ok (_ :: _) => true
  | .findContent .., .ok [] => true
  | .insert _, .ok (_ + 1) => true
  | _, _ => false

/-- What a fault of the store is to those who wait for the dispatch. -/
def imageOf : Fault → EntityFailure
  | .recordNotFound _ => .notFound
  | .recordNotUpdated | .uniqueViolation _ | .primaryKeyViolation _ => .other "EntityErrorKind"
  | _ => .transaction

/-- How a dispatch ends by an answer that does not let it go on. -/
def ending : (statement : Statement) → Except Fault statement.Answer → Except Failure Outcome
  | .findUser _, .ok _ => .error ⟨some (.store .notFound), .entity .notFound⟩
  | .insert _, .error (.uniqueViolation _) | .insert _, .error (.primaryKeyViolation _) =>
    .ok .duplicate
  | _, .ok _ => .ok .duplicate
  | _, .error fault => .error ⟨some (.store (.ofFault fault)), .entity (imageOf fault)⟩

/-- Puts statements as long as the answers pass, and then hands the event to the channel. -/
def screen (event : Event) : List Statement → Plan (Except Failure Outcome)
  | [] => announcing event
  | statement :: rest =>
    .step (.query statement) fun given =>
      if passes statement given then screen event rest else .done (ending statement given)

theorem inserting_eq_screen (event : Event) (new : NewNotification) :
    inserting event new = screen event [.insert new] := by
  apply congrArg (Plan.step (.query (.insert new)))
  funext given
  cases given with
  | ok affected => cases affected <;> rfl
  | error fault => cases fault <;> rfl

theorem looking_eq_screen (event : Event) (new : NewNotification) (content : Identifier) :
    looking event new content =
      screen event [.findContent new.user content, .insert new] := by
  apply congrArg (Plan.step (.query (.findContent new.user content)))
  funext given
  cases given with
  | ok rows =>
      cases rows with
      | nil => exact inserting_eq_screen event new
      | cons row rows => rfl
  | error fault => cases fault <;> rfl

theorem recording_eq_screen (event : Event) (new : NewNotification) :
    recording event new = screen event ((lookups new).tail ++ [.insert new]) := by
  rw [recording, lookups]
  cases new.content with
  | none => exact inserting_eq_screen event new
  | some content => exact looking_eq_screen event new content

theorem plan_eq_screen (event : Event) : plan event = screen event (course event) := by
  rw [plan_eq, course]
  cases NewNotification.ofEvent? event with
  | none => rfl
  | some new =>
      apply congrArg (Plan.step (.query (.findUser new.user)))
      funext given
      cases given with
      | ok found =>
          cases found with
          | nil => rfl
          | cons user found => exact recording_eq_screen event new
      | error fault => cases fault <;> rfl

/-! Courses on any store and channel. -/

section Screen

variable {σ : Type} {answer : σ → (action : Action) → action.Answer × σ}

/-- All the statements were put, and the answers let the dispatch go on. -/
inductive Passing (answer : σ → (action : Action) → action.Answer × σ) :
    List Statement → σ → σ → Prop
  | nil (state : σ) : Passing answer [] state state
  | cons {statement : Statement} {rest : List Statement} {state reached : σ}
      (hpasses : passes statement (answer state (.query statement)).1 = true)
      (hrest : Passing answer rest (answer state (.query statement)).2 reached) :
      Passing answer (statement :: rest) state reached

/-- A course is passed to the end, or ends at the first statement whose answer does not pass. -/
theorem run_screen_cases (event : Event) (statements : List Statement) (state : σ) :
    (∃ reached, Passing answer statements state reached ∧
      (screen event statements).run answer state =
        (.ok (handed (answer reached (.publish event)).1), (answer reached (.publish event)).2)) ∨
    ∃ front statement rest reached, statements = front ++ statement :: rest ∧
      Passing answer front state reached ∧
      passes statement (answer reached (.query statement)).1 = false ∧
      (screen event statements).run answer state =
        (ending statement (answer reached (.query statement)).1,
          (answer reached (.query statement)).2) := by
  induction statements generalizing state with
  | nil => exact .inl ⟨state, .nil state, rfl⟩
  | cons statement rest ih =>
      cases hpasses : passes statement (answer state (.query statement)).1 with
      | false =>
          refine .inr ⟨[], statement, rest, state, rfl, .nil state, hpasses, ?_⟩
          simp [screen, Plan.run, hpasses]
      | true =>
          have hrun : (screen event (statement :: rest)).run answer state =
              (screen event rest).run answer (answer state (.query statement)).2 := by
            simp [screen, Plan.run, hpasses]
          rw [hrun]
          obtain ⟨reached, hpassing, hend⟩ | ⟨front, last, later, reached, rfl, hpassing, hstop⟩ :=
            ih (answer state (.query statement)).2
          · exact .inl ⟨reached, .cons hpasses hpassing, hend⟩
          · exact .inr ⟨statement :: front, last, later, reached, rfl, .cons hpasses hpassing, hstop⟩

end Screen

/-! A store that answers as an oracle says. -/

structure Reply where
  statement : Statement
  given : Except Fault statement.Answer

def Reply.passes (reply : Reply) : Bool := Dispatch.passes reply.statement reply.given

/-- What a store answers to a statement, after those that it has answered already. -/
abbrev Oracle := List Reply → (statement : Statement) → Except Fault statement.Answer

/-- The replies to statements that are put one after another. -/
def replies (oracle : Oracle) (statements : List Statement) : List Reply :=
  statements.foldl (fun earlier statement => earlier ++ [⟨statement, oracle earlier statement⟩]) []

theorem replies_append_singleton (oracle : Oracle) (front : List Statement)
    (statement : Statement) :
    replies oracle (front ++ [statement]) =
      replies oracle front ++ [⟨statement, oracle (replies oracle front) statement⟩] := by
  simp [replies]

/-- A service whose store was consulted. -/
structure Consultation where
  service : Service
  /-- What the store was asked, with its answers. -/
  asked : List Reply
  /-- The events handed to the channel, whether or not the channel took them. -/
  offered : List Event

namespace Consultation

def answer (oracle : Oracle) (consultation : Consultation) :
    (action : Action) → action.Answer × Consultation
  | .query statement =>
    let given := oracle consultation.asked statement
    (given, { consultation with asked := consultation.asked ++ [⟨statement, given⟩] })
  | .publish event =>
    let (taken, service) := consultation.service.answer (.publish event)
    (taken, { consultation with service, offered := consultation.offered ++ [event] })

end Consultation

/-- A dispatch by a service whose store answers as the oracle says. -/
def consult (oracle : Oracle) (service : Service) (event : Event) :
    Except Failure Outcome × Consultation :=
  (plan event).run (Consultation.answer oracle) ⟨service, [], []⟩

theorem Passing.consultation {oracle : Oracle} {front statements : List Statement}
    {service : Service} {reached : Consultation}
    (hpassing : Passing (Consultation.answer oracle) statements ⟨service, replies oracle front, []⟩
      reached)
    (hfront : ∀ reply ∈ replies oracle front, reply.passes = true) :
    reached = ⟨service, replies oracle (front ++ statements), []⟩ ∧
      ∀ reply ∈ replies oracle (front ++ statements), reply.passes = true := by
  induction statements generalizing front with
  | nil =>
      cases hpassing
      simpa using hfront
  | cons statement rest ih =>
      cases hpassing with
      | cons hpasses hrest =>
          have hlonger : ∀ reply ∈ replies oracle (front ++ [statement]), reply.passes = true := by
            intro reply hreply
            rw [replies_append_singleton, List.mem_append, List.mem_singleton] at hreply
            obtain hreply | rfl := hreply
            · exact hfront reply hreply
            · exact hpasses
          simp only [Consultation.answer, ← replies_append_singleton] at hrest
          simpa using ih hrest hlonger

/--
Whatever the store answers: a dispatch puts the statements of its course in order, each once those
before it have passed. If all of them pass, the event is handed to the channel once, for the topic of
the settings, and the outcome says whether the channel took it. If one does not, it is the last that is
put, nothing is handed to the channel, and its answer decides what the dispatch gives.
-/
theorem dispatch_follows_answers (oracle : Oracle) (service : Service) (event : Event) :
    ((∀ reply ∈ replies oracle (course event), reply.passes = true) ∧
      consult oracle service event =
        if service.takesEvents then
          (.ok .published,
            ⟨{ service with topics := service.topics.publish service.settings.topic event },
              replies oracle (course event), [event]⟩)
        else (.ok .publishFailed, ⟨service, replies oracle (course event), [event]⟩)) ∨
    ∃ front statement rest, course event = front ++ statement :: rest ∧
      (∀ reply ∈ replies oracle front, reply.passes = true) ∧
      passes statement (oracle (replies oracle front) statement) = false ∧
      consult oracle service event =
        (ending statement (oracle (replies oracle front) statement),
          ⟨service, replies oracle (front ++ [statement]), []⟩) := by
  rw [consult, plan_eq_screen]
  have hnone : ∀ reply ∈ replies oracle [], reply.passes = true := by
    simp [replies]
  obtain ⟨reached, hpassing, hend⟩ | ⟨front, last, rest, reached, hcourse, hpassing, hstop, hend⟩ :=
    @run_screen_cases _ (Consultation.answer oracle) event (course event) ⟨service, [], []⟩
  · left
    obtain ⟨rfl, hpasses⟩ := hpassing.consultation hnone
    refine ⟨hpasses, hend.trans ?_⟩
    cases htakes : service.takesEvents <;>
      simp [Consultation.answer, Service.answer, handed, htakes]
  · right
    obtain ⟨rfl, hpasses⟩ := hpassing.consultation hnone
    refine ⟨front, last, rest, hcourse, hpasses, hstop, hend.trans ?_⟩
    rw [replies_append_singleton]
    rfl

end Herald.Dispatch
