import Herald.Failure
import Herald.Publisher.Basic

/-!
Work that changes the store and stages events. The events reach the publisher only after the changes
are committed; if the work or the commit fails, the changes are undone and the events are discarded.
-/

namespace Herald.UnitOfWork

structure Control (σ : Type) where
  /-- Why no transaction can be started, if none can. -/
  begin : σ → Option Store.Fault
  /-- Why the state at the end of the work cannot be committed, if it cannot. -/
  commit : σ → Option Store.Fault
  /-- Why undoing the work fails, if it does. -/
  rollback : σ → Option Store.Fault

structure Work (σ α : Type) where
  result : Except Failure α
  state : σ
  pending : Pending

def transact {σ α Handler : Type} (control : Control σ) (handle : Handler → Event → StateM σ Unit)
    (publisher : Publisher Handler) (work : σ → Work σ α) : StateM σ (Except Failure α) := do
  let before ← get
  match control.begin before with
  | some fault => pure (.error (.ofStoreFault fault))
  | none =>
    let done := work before
    match done.result with
    | .error failure =>
      let _ := control.rollback done.state
      pure (.error failure)
    | .ok value =>
      match control.commit done.state with
      | some fault => pure (.error (.ofStoreFault fault))
      | none =>
        set done.state
        publisher.publishAll handle done.pending.events
        pure (.ok value)

end Herald.UnitOfWork
