import Herald.Proofs.Publisher.Calls
import Herald.UnitOfWork

/-!
What a transaction does. The work is any sequence of reads, writes and staged events; handlers are
called only for work that was committed, and then with exactly the events it staged.
-/

namespace Herald.UnitOfWork

open Publisher (Call noting ofHandlers trace)

/-- Work in its steps. What it does next may depend on all that it has read. -/
inductive Procedure (σ α : Type) : Type
  | finish (outcome : Except Failure α)
  | read (next : σ → Procedure σ α)
  | write (change : σ → σ) (next : Procedure σ α)
  | stage (event : Event) (next : Procedure σ α)

variable {σ α Handler : Type}

namespace Procedure

/-- Runs a procedure in a transaction, with the events that are pending already. -/
def run : Procedure σ α → Pending → σ → Work σ α
  | .finish outcome, pending, state => ⟨outcome, state, pending⟩
  | .read next, pending, state => (next state).run pending state
  | .write change next, pending, state => next.run pending (change state)
  | .stage event next, pending, state => next.run (pending.stage event) state

def work (procedure : Procedure σ α) (state : σ) : Work σ α := procedure.run .empty state

def result : Procedure σ α → σ → Except Failure α
  | .finish outcome, _ => outcome
  | .read next, state => (next state).result state
  | .write change next, state => next.result (change state)
  | .stage _ next, state => next.result state

def final : Procedure σ α → σ → σ
  | .finish _, state => state
  | .read next, state => (next state).final state
  | .write change next, state => next.final (change state)
  | .stage _ next, state => next.final state

def staged : Procedure σ α → σ → List Event
  | .finish _, _ => []
  | .read next, state => (next state).staged state
  | .write change next, state => next.staged (change state)
  | .stage event next, state => event :: next.staged state

theorem run_eq (procedure : Procedure σ α) (pending : Pending) (state : σ) :
    procedure.run pending state =
      ⟨procedure.result state, procedure.final state,
        ⟨pending.events ++ procedure.staged state⟩⟩ := by
  induction procedure generalizing pending state with
  | finish outcome =>
      simp only [run, result, final, staged, List.append_nil]
  | read next ih => exact ih state pending state
  | write change next ih => exact ih pending (change state)
  | stage event next ih =>
      rw [run, ih]
      simp only [Pending.stage, result, final, staged, List.append_assoc, List.singleton_append]

theorem work_eq (procedure : Procedure σ α) (state : σ) :
    procedure.work state =
      ⟨procedure.result state, procedure.final state, ⟨procedure.staged state⟩⟩ :=
  run_eq procedure .empty state

end Procedure

/-! Watching a transaction: the committed state is kept together with the calls made so far. -/

namespace Control

def watched (control : Control σ) : Control (σ × List (Call σ Handler)) where
  begin noted := control.begin noted.1
  commit noted := control.commit noted.1
  rollback noted := control.rollback noted.1

end Control

namespace Work

def watched (work : σ → Work σ α) (noted : σ × List (Call σ Handler)) :
    Work (σ × List (Call σ Handler)) α :=
  let done := work noted.1
  ⟨done.result, (done.state, noted.2), done.pending⟩

end Work

structure Record (σ α Handler : Type) where
  result : Except Failure α
  committed : σ
  /-- The calls of handlers, first to last, each with the committed state that it found. -/
  calls : List (Call σ Handler)

def observe (control : Control σ) (handle : Handler → Event → StateM σ Unit)
    (publisher : Publisher Handler) (work : σ → Work σ α) (before : σ) : Record σ α Handler :=
  let ran := (transact control.watched (noting handle) publisher (Work.watched work)).run (before, [])
  ⟨ran.1, ran.2.1, ran.2.2⟩

section

variable (control : Control σ) (handle : Handler → Event → StateM σ Unit)
  (publisher : Publisher Handler) (work : σ → Work σ α) (before : σ)

theorem transact_run :
    (transact control handle publisher work).run before =
      match control.begin before, (work before).result, control.commit (work before).state with
      | some fault, _, _ => (.error (.ofStoreFault fault), before)
      | none, .error failure, _ => (.error failure, before)
      | none, .ok _, some fault => (.error (.ofStoreFault fault), before)
      | none, .ok value, none =>
        (.ok value, ((publisher.publishAll handle (work before).pending.events).run
          (work before).state).2) := by
  simp only [transact, StateT.run_bind, StateT.run_get, pure_bind]
  cases hbegin : control.begin before with
  | some fault => rfl
  | none =>
      cases hresult : (work before).result with
      | error failure => rfl
      | ok value =>
          cases hcommit : control.commit (work before).state with
          | some fault => rfl
          | none => rfl

theorem transact_watched_run :
    (transact control.watched (noting handle) publisher (Work.watched work)).run (before, []) =
      match control.begin before, (work before).result, control.commit (work before).state with
      | some fault, _, _ => (.error (.ofStoreFault fault), before, [])
      | none, .error failure, _ => (.error failure, before, [])
      | none, .ok _, some fault => (.error (.ofStoreFault fault), before, [])
      | none, .ok value, none =>
        let made := trace handle (work before).state
          (publisher.calls (work before).pending.events)
        (.ok value, made.foldl (Call.leave handle) (work before).state, made) := by
  rw [transact_run]
  simp only [Control.watched, Work.watched, Publisher.publishAll_noting, List.nil_append]

/-- Watching a transaction changes neither its result nor the committed state. -/
theorem transact_run_eq_observe :
    (transact control handle publisher work).run before =
      ((observe control handle publisher work before).result,
        (observe control handle publisher work before).committed) := by
  rw [observe, transact_watched_run, transact_run, Publisher.publishAll_run]
  cases control.begin before with
  | some fault => rfl
  | none =>
      cases (work before).result with
      | error failure => rfl
      | ok value =>
          cases control.commit (work before).state with
          | some fault => rfl
          | none => rfl

theorem observe_procedure (registered : List Handler) (procedure : Procedure σ α) :
    observe control handle (ofHandlers registered) procedure.work before =
      match control.begin before, procedure.result before,
        control.commit (procedure.final before) with
      | some fault, _, _ => ⟨.error (.ofStoreFault fault), before, []⟩
      | none, .error failure, _ => ⟨.error failure, before, []⟩
      | none, .ok _, some fault => ⟨.error (.ofStoreFault fault), before, []⟩
      | none, .ok value, none =>
        let made := trace handle (procedure.final before)
          ((procedure.staged before).flatMap fun event =>
            registered.map fun handler => (handler, event))
        ⟨.ok value, made.foldl (Call.leave handle) (procedure.final before), made⟩ := by
  rw [observe, transact_watched_run, Procedure.work_eq]
  cases control.begin before with
  | some fault => rfl
  | none =>
      cases procedure.result before with
      | error failure => rfl
      | ok value =>
          cases control.commit (procedure.final before) with
          | some fault => rfl
          | none =>
              rw [← Publisher.calls_ofHandlers]

end

/--
Handlers are called if and only if the transaction began, its work succeeded and was committed.
They are called with the staged events then, in the order of staging, each event for every handler
in the order of registration, and every call finds what was committed and what the calls before it
left. In any other case the committed state stays as it was.
-/
theorem transact_calls_iff_committed (control : Control σ)
    (handle : Handler → Event → StateM σ Unit) (registered : List Handler)
    (procedure : Procedure σ α) (before : σ) :
    let seen := observe control handle (ofHandlers registered) procedure.work before
    let final := procedure.final before
    let staged := procedure.staged before
    (transact control handle (ofHandlers registered) procedure.work).run before =
        (seen.result, seen.committed) ∧
      (seen.calls ≠ [] ↔
        control.begin before = none ∧ (∃ value, procedure.result before = .ok value) ∧
          control.commit final = none ∧ staged ≠ [] ∧ registered ≠ []) ∧
      match control.begin before, procedure.result before, control.commit final with
      | some fault, _, _ => seen = ⟨.error (.ofStoreFault fault), before, []⟩
      | none, .error failure, _ => seen = ⟨.error failure, before, []⟩
      | none, .ok _, some fault => seen = ⟨.error (.ofStoreFault fault), before, []⟩
      | none, .ok value, none =>
        seen.result = .ok value ∧
          seen.calls.map Call.pair =
            (staged.flatMap fun event => registered.map fun handler => (handler, event)) ∧
          (∀ index call, seen.calls[index]? = some call →
            call.found = (seen.calls.take index).foldl (Call.leave handle) final) ∧
          seen.committed = seen.calls.foldl (Call.leave handle) final := by
  intro seen final staged
  have hseen : seen = _ := observe_procedure control handle before registered procedure
  refine ⟨transact_run_eq_observe .., ?_⟩
  cases hbegin : control.begin before with
  | some fault =>
      simp only [hbegin] at hseen
      exact ⟨⟨fun hcalls => absurd (congrArg Record.calls hseen) hcalls, nofun⟩, hseen⟩
  | none =>
      cases hresult : procedure.result before with
      | error failure =>
          simp only [hbegin, hresult] at hseen
          refine ⟨⟨fun hcalls => absurd (congrArg Record.calls hseen) hcalls, ?_⟩, hseen⟩
          rintro ⟨_, ⟨_, hvalue⟩, _⟩
          nomatch hvalue
      | ok value =>
          cases hcommit : control.commit final with
          | some fault =>
              simp only [hbegin, hresult, final, hcommit] at hseen
              refine ⟨⟨fun hcalls => absurd (congrArg Record.calls hseen) hcalls, ?_⟩, hseen⟩
              rintro ⟨_, _, hnone, _⟩
              nomatch hnone
          | none =>
              simp only [hbegin, hresult, final, hcommit] at hseen
              have hcalls : seen.calls.map Call.pair =
                  staged.flatMap fun event => registered.map fun handler => (handler, event) := by
                rw [hseen]
                exact Publisher.map_pair_trace ..
              refine ⟨?_, congrArg Record.result hseen, hcalls, ?_, ?_⟩
              · have hnonempty : seen.calls ≠ [] ↔ staged ≠ [] ∧ registered ≠ [] := by
                  rw [← Publisher.flatMap_pairs_ne_nil_iff, ← hcalls]
                  exact not_congr List.map_eq_nil_iff.symm
                rw [hnonempty]
                exact ⟨fun hboth => ⟨rfl, ⟨value, rfl⟩, rfl, hboth⟩, fun hall => hall.2.2.2⟩
              · intro index call hcall
                rw [hseen] at hcall ⊢
                exact Publisher.found_trace _ _ hcall
              · rw [hseen]

end Herald.UnitOfWork
