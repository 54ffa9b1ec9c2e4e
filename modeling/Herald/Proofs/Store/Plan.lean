import Herald.Store.Plan

/-!
How plans run. One plan after another answers as the two do in turn. How long a plan takes is the number
of steps to its end, whatever the answers are.
-/

namespace Herald.Store.Plan

variable {α β : Type}

theorem run_bind {σ : Type} (answer : σ → (action : Action) → action.Answer × σ) (plan : Plan α)
    (next : α → Plan β) (state : σ) :
    (plan >>= next).run answer state =
      (next (plan.run answer state).1).run answer (plan.run answer state).2 := by
  induction plan generalizing state with
  | done value => rfl
  | step action continuation ih => exact ih _ _

/-- A plan that takes at most so many steps. -/
inductive EndsWithin : Nat → Plan α → Prop
  | done (limit : Nat) (value : α) : EndsWithin limit (.done value)
  | step {limit : Nat} {action : Action} {next : action.Answer → Plan α}
      (hnext : ∀ answer, EndsWithin limit (next answer)) : EndsWithin (limit + 1) (.step action next)

theorem EndsWithin.mono {limit greater : Nat} {plan : Plan α} (hends : plan.EndsWithin limit)
    (hlimit : limit ≤ greater) : plan.EndsWithin greater := by
  induction hends generalizing greater with
  | done limit value => exact .done greater value
  | step hnext ih =>
      obtain ⟨greater, rfl⟩ := Nat.exists_eq_add_one_of_ne_zero (Nat.ne_zero_of_lt hlimit)
      exact .step fun answer => ih answer (Nat.le_of_succ_le_succ hlimit)

theorem EndsWithin.eq_done {plan : Plan α} (hends : plan.EndsWithin 0) :
    ∃ value, plan = .done value := by
  cases hends with
  | done limit value => exact ⟨value, rfl⟩

end Herald.Store.Plan
