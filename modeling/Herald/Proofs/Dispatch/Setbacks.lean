import Herald.Proofs.Dispatch.Answers
import Herald.Proofs.Publisher.Calls
import Herald.Proofs.Store.Likeness

/-!
Dispatches that go wrong. Faults may hit any statements, and any events may not be taken by the
channel; a dispatch that fails leaves everything as it was, so those that do not fail leave the same as if
they had been made alone.
-/

namespace Herald.Dispatch

open Store (Action Fault Plan Stamp Statement Tables)

/-! What a dispatch meets, and what it gives under that. -/

structure Conditions where
  /-- The fault a statement fails with, if it is to fail; a dispatch puts a statement only once. -/
  fault? : Statement → Option Fault
  /-- Whether the channel takes the event. -/
  takesEvent : Bool

def Conditions.fair : Conditions := ⟨fun _ => none, true⟩

/-- What a statement on these tables is answered. -/
def Conditions.given (conditions : Conditions) (tables : Tables) (statement : Statement) :
    Except Fault statement.Answer :=
  match conditions.fault? statement with
  | some fault => .error fault
  | none => (tables.answer statement).1

structure Scene where
  tables : Tables
  /-- The events handed to the channel, and whether it took them. -/
  handed : List (Event × Bool)

/-- A statement that fails changes nothing. -/
def Scene.answer (conditions : Conditions) (scene : Scene) :
    (action : Action) → action.Answer × Scene
  | .query statement =>
    match conditions.fault? statement with
    | some fault => (.error fault, scene)
    | none =>
      let (given, tables) := scene.tables.answer statement
      (given, { scene with tables })
  | .publish event =>
    (conditions.takesEvent,
      { scene with handed := scene.handed ++ [(event, conditions.takesEvent)] })

structure Trial where
  event : Event
  conditions : Conditions

def Trial.dispatch (trial : Trial) (scene : Scene) : Except Failure Outcome × Scene :=
  (plan trial.event).run (Scene.answer trial.conditions) scene

section Answers

variable {conditions : Conditions} {scene : Scene} {new : NewNotification}

theorem answer_query_fst (statement : Statement) :
    (scene.answer conditions (.query statement)).1 = conditions.given scene.tables statement := by
  rw [Scene.answer, Conditions.given]
  cases conditions.fault? statement <;> rfl

theorem answer_of_mem_lookups {statement : Statement} (hlookup : statement ∈ lookups new) :
    (scene.answer conditions (.query statement)).2 = scene := by
  have hsame : (scene.tables.answer statement).2 = scene.tables := by
    rw [Tables.answer]
    split
    case isTrue => rfl
    case isFalse =>
      rw [lookups, List.mem_cons, Option.mem_toList, Option.map_eq_some_iff] at hlookup
      obtain rfl | ⟨content, -, rfl⟩ := hlookup <;> rfl
  rw [Scene.answer]
  cases conditions.fault? statement with
  | some fault => rfl
  | none => simp [hsame]

theorem answer_insert :
    (scene.answer conditions (.query (.insert new))).2 =
      if passes (.insert new) (conditions.given scene.tables (.insert new)) then
        { scene with tables := scene.tables.add new }
      else scene := by
  rw [Scene.answer, Conditions.given]
  cases conditions.fault? (.insert new) with
  | some fault => rfl
  | none =>
      obtain ⟨given, hanswer, hnone⟩ | ⟨-, hanswer⟩ := scene.tables.answer_insert_cases new
      · cases given with
        | error fault => simp [hanswer, passes]
        | ok affected => simp [hanswer, hnone affected rfl, passes]
      · simp [hanswer, passes]

end Answers

/-! The statement that stops a dispatch. -/

/-- The first statement of a dispatch whose answer does not let it go on. -/
def Trial.stop? (trial : Trial) (tables : Tables) : Option Statement :=
  (course trial.event).find? fun statement =>
    !passes statement (trial.conditions.given tables statement)

/-- The tables with the row of an event, if that is recorded. -/
def recorded (event : Event) (tables : Tables) : Tables :=
  match NewNotification.ofEvent? event with
  | none => tables
  | some new => tables.add new

theorem run_screen_append {conditions : Conditions} {scene : Scene} {front : List Statement}
    (hfront : ∀ statement ∈ front, (scene.answer conditions (.query statement)).2 = scene)
    (event : Event) (rest : List Statement) :
    (screen event (front ++ rest)).run (Scene.answer conditions) scene =
      match front.find? fun statement =>
          !passes statement (conditions.given scene.tables statement) with
      | some statement => (ending statement (conditions.given scene.tables statement), scene)
      | none => (screen event rest).run (Scene.answer conditions) scene := by
  induction front with
  | nil => rfl
  | cons statement front ih =>
      obtain ⟨hstatement, hfront⟩ := List.forall_mem_cons.mp hfront
      simp only [List.cons_append, screen, Plan.run, answer_query_fst, hstatement, List.find?_cons]
      cases passes statement (conditions.given scene.tables statement) with
      | false => rfl
      | true => exact ih hfront

theorem run_screen_insert (conditions : Conditions) (scene : Scene) (event : Event)
    (new : NewNotification) :
    (screen event [.insert new]).run (Scene.answer conditions) scene =
      if passes (.insert new) (conditions.given scene.tables (.insert new)) then
        (.ok (handed conditions.takesEvent),
          ⟨scene.tables.add new, scene.handed ++ [(event, conditions.takesEvent)]⟩)
      else (ending (.insert new) (conditions.given scene.tables (.insert new)), scene) := by
  simp only [screen, Plan.run, answer_query_fst, answer_insert]
  cases passes (.insert new) (conditions.given scene.tables (.insert new)) <;> rfl

/-- A dispatch stops and leaves everything as it was, or it records its event and hands it on. -/
theorem Trial.dispatch_eq (trial : Trial) (scene : Scene) :
    trial.dispatch scene =
      match trial.stop? scene.tables with
      | some statement =>
        (ending statement (trial.conditions.given scene.tables statement), scene)
      | none =>
        (.ok (handed trial.conditions.takesEvent),
          ⟨recorded trial.event scene.tables,
            scene.handed ++ [(trial.event, trial.conditions.takesEvent)]⟩) := by
  rw [dispatch, plan_eq_screen, stop?, course, recorded]
  cases NewNotification.ofEvent? trial.event with
  | none => rfl
  | some new =>
      simp only [run_screen_append fun _ => answer_of_mem_lookups, run_screen_insert,
        List.find?_append, List.find?_singleton]
      cases (lookups new).find? fun statement =>
          !passes statement (trial.conditions.given scene.tables statement) with
      | some statement => rfl
      | none =>
          cases passes (.insert new) (trial.conditions.given scene.tables (.insert new)) <;> rfl

/-- Whether an answer is a setback: nobody was found, or the statement failed in any other way than by
a row that is there already. -/
def isSetback : (statement : Statement) → Except Fault statement.Answer → Bool
  | .findUser _, .ok found => found.isEmpty
  | .insert _, .error fault => !fault.isUniqueness
  | _, .ok _ => false
  | _, .error _ => true

theorem ending_eq_error_iff {statement : Statement} {given : Except Fault statement.Answer}
    (hstops : passes statement given = false) :
    (∃ failure, ending statement given = .error failure) ↔ isSetback statement given = true := by
  cases statement <;> cases given with
  | ok value => cases value <;> simp_all [passes, ending, isSetback]
  | error fault => cases fault <;> simp [ending, isSetback, Fault.isUniqueness]

/-! Tables that are alike. -/

section Alike

variable {conditions : Conditions} {left right : Tables}

theorem passes_findContent (user content : Identifier) (rows : List Notification) :
    passes (.findContent user content) (.ok rows) = rows.isEmpty := by
  cases rows <;> rfl

/-- On tables that are alike, a statement stops a dispatch on both or on neither, and in one way. -/
theorem answers_of_alike (halike : left.Alike right) (statement : Statement) :
    passes statement (conditions.given left statement) =
        passes statement (conditions.given right statement) ∧
      ending statement (conditions.given left statement) =
        ending statement (conditions.given right statement) := by
  rw [Conditions.given, Conditions.given]
  cases conditions.fault? statement with
  | some fault => exact ⟨rfl, rfl⟩
  | none =>
      simp only [Tables.answer, ← halike.isClosed]
      cases left.isClosed with
      | true => exact ⟨rfl, rfl⟩
      | false =>
          cases statement with
          | findUser user => simp [Tables.answerOpen, halike.users]
          | findContent user content =>
              refine ⟨?_, rfl⟩
              apply (passes_findContent user content _).trans
              apply Eq.trans _ (passes_findContent user content _).symm
              simp [Tables.isEmpty_filter_rows, halike.hasContent_eq]
          | insert new => simp [Tables.answerOpen, (halike.insert new).1]
          | _ => exact ⟨rfl, rfl⟩

theorem Trial.stop?_of_alike (halike : left.Alike right) (trial : Trial) :
    trial.stop? left = trial.stop? right := by
  rw [stop?, stop?]
  congr
  funext statement
  rw [(answers_of_alike halike statement).1]

theorem recorded_of_alike (halike : left.Alike right) (event : Event) :
    (recorded event left).Alike (recorded event right) := by
  rw [recorded, recorded]
  cases NewNotification.ofEvent? event with
  | none => exact halike
  | some new => exact halike.add new

/-- Two scenes with tables that are alike and the same events handed on. -/
structure Scene.Alike (left right : Scene) : Prop where
  tables : left.tables.Alike right.tables
  handed : left.handed = right.handed

theorem Trial.dispatch_of_alike {left right : Scene} (halike : left.Alike right) (trial : Trial) :
    (trial.dispatch left).1 = (trial.dispatch right).1 ∧
      (trial.dispatch left).2.Alike (trial.dispatch right).2 := by
  rw [dispatch_eq, dispatch_eq, ← trial.stop?_of_alike halike.tables]
  cases trial.stop? left.tables with
  | some statement => exact ⟨(answers_of_alike halike.tables statement).2, halike⟩
  | none =>
      refine ⟨rfl, recorded_of_alike halike.tables trial.event, ?_⟩
      simp [halike.handed]

end Alike

/-! Failures. -/

theorem Trial.stop?_spec {trial : Trial} {tables : Tables} {statement : Statement}
    (hstop : trial.stop? tables = some statement) :
    passes statement (trial.conditions.given tables statement) = false := by
  simpa using List.find?_some hstop

/-- A dispatch fails exactly by a setback, and then it leaves everything as it was. -/
theorem Trial.dispatch_fails_iff (trial : Trial) (scene : Scene) :
    (∃ failure, (trial.dispatch scene).1 = .error failure) ↔
      ∃ statement, trial.stop? scene.tables = some statement ∧
        isSetback statement (trial.conditions.given scene.tables statement) = true := by
  rw [dispatch_eq]
  cases hstop : trial.stop? scene.tables with
  | none => simp
  | some statement => simpa using ending_eq_error_iff (stop?_spec hstop)

theorem Trial.dispatch_of_failure {trial : Trial} {scene : Scene} {failure : Failure}
    (hfails : (trial.dispatch scene).1 = .error failure) : (trial.dispatch scene).2 = scene := by
  rw [dispatch_eq] at hfails ⊢
  cases hstop : trial.stop? scene.tables with
  | none => simp [hstop] at hfails
  | some statement => rfl

/-! Trials one after another. -/

namespace Scene

variable {left right : Scene}

def leave (scene : Scene) (trials : List Trial) : Scene :=
  trials.foldl (fun scene trial => (trial.dispatch scene).2) scene

/-- What the dispatches of trials give. -/
def results : Scene → List Trial → List (Except Failure Outcome)
  | _, [] => []
  | scene, trial :: rest =>
    (trial.dispatch scene).1 :: results (trial.dispatch scene).2 rest

theorem length_results (scene : Scene) (trials : List Trial) :
    (scene.results trials).length = trials.length := by
  induction trials generalizing scene with
  | nil => rfl
  | cons trial trials ih => simp [results, ih]

theorem getElem?_results (scene : Scene) (trials : List Trial) {index : Nat}
    (hindex : index < trials.length) :
    (scene.results trials)[index]? =
      some (trials[index].dispatch (scene.leave (trials.take index))).1 := by
  induction trials generalizing scene index with
  | nil => cases hindex
  | cons trial trials ih =>
      cases index with
      | zero => rfl
      | succ index => exact ih (trial.dispatch scene).2 (Nat.lt_of_succ_lt_succ hindex)

theorem leave_take_succ (scene : Scene) (trials : List Trial) {index : Nat}
    (hindex : index < trials.length) :
    scene.leave (trials.take (index + 1)) =
      (trials[index].dispatch (scene.leave (trials.take index))).2 := by
  rw [List.take_succ_eq_append_getElem hindex, leave, List.foldl_append]
  rfl

end Scene

/-- The trials whose dispatch did not fail. -/
def kept (trials : List Trial) (results : List (Except Failure Outcome)) : List Trial :=
  ((trials.zip results).filter (·.2.isOk)).map (·.1)

theorem kept_cons (trial : Trial) (trials : List Trial) (result : Except Failure Outcome)
    (results : List (Except Failure Outcome)) :
    kept (trial :: trials) (result :: results) =
      if result.isOk then trial :: kept trials results else kept trials results := by
  simp only [kept, List.zip_cons_cons, List.filter_cons]
  split <;> rfl

/-- The dispatches that did not fail give the same, and leave the same, without the others. -/
theorem Scene.Alike.leave_kept {left right : Scene} (halike : left.Alike right)
    (trials : List Trial) :
    (left.leave trials).Alike (right.leave (kept trials (left.results trials))) ∧
      right.results (kept trials (left.results trials)) =
        (left.results trials).filter (·.isOk) := by
  induction trials generalizing left right with
  | nil => exact ⟨halike, rfl⟩
  | cons trial trials ih =>
      obtain ⟨hsame, hleft⟩ := trial.dispatch_of_alike halike
      simp only [leave, List.foldl_cons, results, kept_cons, List.filter_cons]
      cases hresult : (trial.dispatch left).1 with
      | error failure =>
          -- the trial that is left out changed nothing, so the next ones still meet scenes that are alike
          rw [Trial.dispatch_of_failure hresult]
          exact ih halike
      | ok outcome =>
          rw [hsame] at hresult
          simpa [results, leave, Except.isOk, Except.toBool, hresult] using ih hleft

/-! Publishing. -/

/-- What became of the events so far, and what the dispatches to come will meet. -/
structure Progress where
  scene : Scene
  results : List (Except Failure Outcome)
  ahead : List Conditions

def perform (plan : Plan (Except Failure Outcome)) :
    StateM Progress (Except Failure Outcome) := fun progress =>
  let (result, scene) := plan.run (Scene.answer (progress.ahead.headD .fair)) progress.scene
  (result, ⟨scene, progress.results ++ [result], progress.ahead.tail⟩)

def handleWith : Service.Handler → Event → StateM Progress Unit
  | .dispatcher => handle perform

/-- What a service's publisher leaves when it publishes the events of trials. -/
def published (trials : List Trial) (tables : Tables) : Progress :=
  ((Service.publisher.publishAll handleWith (trials.map (·.event))).run
    ⟨⟨tables, []⟩, [], trials.map (·.conditions)⟩).2

theorem publishAll_run (trials : List Trial) (scene : Scene)
    (earlier : List (Except Failure Outcome)) :
    (Service.publisher.publishAll handleWith (trials.map (·.event))).run
        ⟨scene, earlier, trials.map (·.conditions)⟩ =
      ((), ⟨scene.leave trials, earlier ++ scene.results trials, []⟩) := by
  induction trials generalizing scene earlier with
  | nil => simp [Scene.leave, Scene.results]; rfl
  | cons trial trials ih =>
      change (Service.publisher.publishAll handleWith (trials.map (·.event))).run
        ⟨(trial.dispatch scene).2, earlier ++ [(trial.dispatch scene).1],
          trials.map (·.conditions)⟩ = _
      simp [ih, Scene.leave, Scene.results]

theorem published_eq (trials : List Trial) (tables : Tables) :
    published trials tables =
      ⟨Scene.leave ⟨tables, []⟩ trials, Scene.results ⟨tables, []⟩ trials, []⟩ := by
  simp [published, publishAll_run]

/--
Whatever statements fail and whatever events the channel does not take: publishing dispatches each event,
in order, on what the dispatches before it left. A dispatch fails exactly by a setback, and then
it leaves the rows and what was handed to the channel as they were. The same events without those whose
dispatch failed, under the same conditions, are given the same outcomes; they leave the same rows
apart from ids and times, and hand the same events to the channel.
-/
theorem published_isolates_failures (tables : Tables) (supply : Nat → Stamp)
    (trials : List Trial) :
    let whole := published trials tables
    let alone := published (kept trials whole.results) (tables.supplied supply)
    whole.results.length = trials.length ∧
      (∀ index : Fin trials.length,
        let trial := trials[index]
        let found := (published (trials.take index) tables).scene
        let result := (trial.dispatch found).1
        let left := (trial.dispatch found).2
        whole.results[index.val]? = some result ∧
          (published (trials.take (index + 1)) tables).scene = left ∧
          ((∃ failure, result = .error failure) ↔ ∃ statement,
            trial.stop? found.tables = some statement ∧
              isSetback statement (trial.conditions.given found.tables statement) = true) ∧
          ((∃ failure, result = .error failure) → left = found)) ∧
      alone.results = whole.results.filter (·.isOk) ∧
      alone.scene.handed = whole.scene.handed ∧
      whole.scene.tables.Alike alone.scene.tables := by
  intro whole alone
  have halike : Scene.Alike ⟨tables, []⟩ ⟨tables.supplied supply, []⟩ :=
    ⟨tables.alike_supplied supply, rfl⟩
  obtain ⟨hleft, hresults⟩ := halike.leave_kept trials
  have hwhole : whole = _ := published_eq trials tables
  have halone : alone = _ := published_eq (kept trials whole.results) (tables.supplied supply)
  rw [hwhole] at halone
  rw [hwhole, halone]
  refine ⟨Scene.length_results _ _, ?_, hresults, hleft.handed.symm, hleft.tables⟩
  intro index trial found result left
  have hfound : found = Scene.leave ⟨tables, []⟩ (trials.take index) := by
    simp [found, published_eq]
  refine ⟨?_, ?_, trial.dispatch_fails_iff found, ?_⟩
  · rw [Scene.getElem?_results ⟨tables, []⟩ trials index.isLt, ← hfound]
    rfl
  · rw [published_eq, Scene.leave_take_succ ⟨tables, []⟩ trials index.isLt, ← hfound]
    rfl
  · rintro ⟨failure, hfails⟩
    exact Trial.dispatch_of_failure hfails

end Herald.Dispatch
