import Herald.Live.Heartbeat
import Mathlib.Algebra.GroupWithZero.Nat

/-!
Heartbeats as time passes. The task sweeps for as long as its deadline has been reached, and how often it
does so at one time is a relation here, with no bound on it. A schedule that is in time has its deadline
ahead, by a period at most, and every advance of the clock leaves it so. Each sweep puts the deadline off by
a period or more, so there are no more sweeps than periods gone by, and none are owed for an advance that
was long.
-/

namespace Herald.Live.Heartbeat

/-- The loop of the task at one time: it sweeps until its deadline lies ahead. -/
inductive Ticks (now : Nat) : Manager → Heartbeat → Nat → Manager → Heartbeat → Prop
  | ahead (manager : Manager) (heartbeat : Heartbeat) (ahead : now < heartbeat.due) :
      Ticks now manager heartbeat 0 manager heartbeat
  | due {manager later : Manager} {heartbeat next : Heartbeat} {count : Nat}
      (due : heartbeat.due ≤ now)
      (rest : Ticks now manager.sweep.1 (heartbeat.swept now) count later next) :
      Ticks now manager heartbeat (count + 1) later next

structure Timely (heartbeat : Heartbeat) (now : Nat) : Prop where
  ahead : now < heartbeat.due
  near : heartbeat.due ≤ now + heartbeat.period

/-- The schedule after the clock has moved by each of the spans, and the sweeps that ran. -/
def elapse (heartbeat : Heartbeat) (now : Nat) : List Nat → Heartbeat × Nat
  | [] => (heartbeat, 0)
  | span :: spans =>
    let ticked := heartbeat.advance (now + span)
    let rest := ticked.1.elapse (now + span) spans
    (rest.1, ticked.2 + rest.2)

section Sweeping

variable {heartbeat next : Heartbeat} {manager later : Manager} {now count fuel : Nat}

@[simp] theorem swept_period (heartbeat : Heartbeat) (now : Nat) :
    (heartbeat.swept now).period = heartbeat.period := by
  simp only [swept, apply_ite period, ite_self]

theorem due_add_period_le_swept (heartbeat : Heartbeat) (now : Nat) :
    heartbeat.due + heartbeat.period ≤ (heartbeat.swept now).due := by
  unfold swept
  split <;> simp only <;> omega

theorem swept_due_le (hdue : heartbeat.due ≤ now) :
    (heartbeat.swept now).due ≤ now + heartbeat.period := by
  unfold swept
  split <;> simp only <;> omega

theorem swept_late (hlate : heartbeat.due + grace < now) :
    heartbeat.swept now = start heartbeat.period now := by
  simp [swept, start, hlate]

theorem catchUp_of_lt_due (hahead : now < heartbeat.due) :
    catchUp now fuel heartbeat = (heartbeat, 0) := by
  cases fuel with
  | zero => rfl
  | succ fuel => simp [catchUp, Nat.not_le.mpr hahead]

theorem catchUp_of_due_le (hdue : heartbeat.due ≤ now) :
    catchUp now (fuel + 1) heartbeat =
      ((catchUp now fuel (heartbeat.swept now)).1,
        (catchUp now fuel (heartbeat.swept now)).2 + 1) := by
  simp [catchUp, hdue]

namespace Ticks

theorem lt_due (hticks : Ticks now manager heartbeat count later next) : now < next.due := by
  induction hticks with
  | ahead _ _ ahead => exact ahead
  | due _ _ ih => exact ih

theorem period_eq (hticks : Ticks now manager heartbeat count later next) :
    next.period = heartbeat.period := by
  induction hticks with
  | ahead => rfl
  | due _ _ ih => simpa using ih

theorem due_le (hticks : Ticks now manager heartbeat count later next)
    (hnear : heartbeat.due ≤ now + heartbeat.period) : next.due ≤ now + heartbeat.period := by
  induction hticks with
  | ahead => exact hnear
  | due due _ ih => simpa using ih (by simpa using swept_due_le due)

theorem due_add_le (hticks : Ticks now manager heartbeat count later next) :
    heartbeat.due + count * heartbeat.period ≤ next.due := by
  induction hticks with
  | ahead => simp
  | @due _ _ heartbeat _ count _ _ ih =>
    have hswept := due_add_period_le_swept heartbeat now
    simp only [swept_period] at ih
    rw [Nat.succ_mul]
    omega

theorem pos (hticks : Ticks now manager heartbeat count later next) (hdue : heartbeat.due ≤ now) :
    1 ≤ count := by
  cases hticks with
  | ahead _ _ ahead => omega
  | due => simp

theorem unique (hticks : Ticks now manager heartbeat count later next) {count' : Nat}
    {later' : Manager} {next' : Heartbeat}
    (hticks' : Ticks now manager heartbeat count' later' next') :
    count' = count ∧ later' = later ∧ next' = next := by
  induction hticks generalizing count' with
  | ahead _ _ ahead =>
    cases hticks' with
    | ahead => simp
    | due due => omega
  | due due _ ih =>
    cases hticks' with
    | ahead _ _ ahead => omega
    | due _ rest => simpa using ih rest

/-- The loop ends within any fuel that its deadline is less than behind by. -/
theorem catchUp (manager : Manager) (hperiod : 1 ≤ heartbeat.period)
    (hfuel : now < heartbeat.due + fuel) :
    Ticks now manager heartbeat (catchUp now fuel heartbeat).2
      (manager.sweeps (catchUp now fuel heartbeat).2) (catchUp now fuel heartbeat).1 := by
  induction fuel generalizing heartbeat manager with
  | zero => exact .ahead manager heartbeat hfuel
  | succ fuel ih =>
    obtain hahead | hdue := Nat.lt_or_ge now heartbeat.due
    · rw [catchUp_of_lt_due hahead]
      exact .ahead manager heartbeat hahead
    · have hswept := due_add_period_le_swept heartbeat now
      rw [catchUp_of_due_le hdue]
      apply Ticks.due hdue
      exact ih manager.sweep.1 (by simpa using hperiod) (by omega)

/-- After one sweep the deadline is no more than the grace behind, however late that one was. -/
theorem advance (manager : Manager) (hperiod : 1 ≤ heartbeat.period) :
    Ticks now manager heartbeat (heartbeat.advance now).2
      (manager.sweeps (heartbeat.advance now).2) (heartbeat.advance now).1 := by
  unfold Heartbeat.advance
  obtain hahead | hdue := Nat.lt_or_ge now heartbeat.due
  · rw [catchUp_of_lt_due hahead]
    exact .ahead manager heartbeat hahead
  · have hbehind : now < (heartbeat.swept now).due + (grace + 1) := by
      unfold swept
      split <;> simp only <;> omega
    rw [catchUp_of_due_le hdue]
    apply Ticks.due hdue
    exact catchUp manager.sweep.1 (by simpa using hperiod) hbehind

end Ticks

end Sweeping

/-- What the next advance does to a schedule at a time. -/
structure Paced (heartbeat : Heartbeat) (now span : Nat) : Prop where
  loop : ∀ manager count later next,
    Ticks (now + span) manager heartbeat count later next ↔
      heartbeat.advance (now + span) = (next, count) ∧ manager.sweeps count = later
  timely : (heartbeat.advance (now + span)).1.Timely (now + span)
  pos : heartbeat.period ≤ span → 1 ≤ (heartbeat.advance (now + span)).2
  few : (heartbeat.advance (now + span)).2 ≤ grace / heartbeat.period + 1
  late : heartbeat.due + grace < now + span →
    heartbeat.advance (now + span) = (start heartbeat.period (now + span), 1)

section Advances

variable {heartbeat : Heartbeat} {now period : Nat}

theorem timely_start (hperiod : 1 ≤ period) (now : Nat) : (start period now).Timely now where
  ahead := Nat.lt_add_of_pos_right hperiod
  near := Nat.le_refl (now + period)

namespace Timely

theorem period_pos (htimely : heartbeat.Timely now) : 1 ≤ heartbeat.period := by
  have hahead := htimely.ahead
  have hnear := htimely.near
  omega

/-- No schedule depends on who is connected, so any manager gives the ticks of an advance. -/
theorem ticks (htimely : heartbeat.Timely now) (time : Nat) :
    ∃ manager, Ticks time manager heartbeat (heartbeat.advance time).2
      (manager.sweeps (heartbeat.advance time).2) (heartbeat.advance time).1 :=
  ⟨.ofCapacity Manager.defaultCapacity, .advance _ htimely.period_pos⟩

theorem advance_period (htimely : heartbeat.Timely now) (time : Nat) :
    (heartbeat.advance time).1.period = heartbeat.period := by
  obtain ⟨_, hticks⟩ := htimely.ticks time
  exact hticks.period_eq

theorem due_add_le (htimely : heartbeat.Timely now) (time : Nat) :
    heartbeat.due + (heartbeat.advance time).2 * heartbeat.period ≤
      (heartbeat.advance time).1.due := by
  obtain ⟨_, hticks⟩ := htimely.ticks time
  exact hticks.due_add_le

theorem advance (htimely : heartbeat.Timely now) (span : Nat) :
    (heartbeat.advance (now + span)).1.Timely (now + span) := by
  obtain ⟨_, hticks⟩ := htimely.ticks (now + span)
  have hnear : heartbeat.due ≤ now + span + heartbeat.period := by
    have := htimely.near
    omega
  exact ⟨hticks.lt_due, by simpa only [hticks.period_eq] using hticks.due_le hnear⟩

theorem advance_of_late (htimely : heartbeat.Timely now) {time : Nat}
    (hlate : heartbeat.due + grace < time) :
    heartbeat.advance time = (start heartbeat.period time, 1) := by
  have hahead := (timely_start htimely.period_pos time).ahead
  rw [Heartbeat.advance, catchUp_of_due_le (by omega), swept_late hlate,
    catchUp_of_lt_due hahead]

/-- Sweeps that are not late are for deadlines within the grace. -/
theorem advance_few (htimely : heartbeat.Timely now) (span : Nat) :
    (heartbeat.advance (now + span)).2 ≤ grace / heartbeat.period + 1 := by
  obtain hlate | hsoon := Nat.lt_or_ge (heartbeat.due + grace) (now + span)
  · simp [htimely.advance_of_late hlate]
  · have hdue := htimely.due_add_le (now + span)
    have hnear := (htimely.advance span).near
    rw [htimely.advance_period] at hnear
    rw [← Nat.add_div_right _ htimely.period_pos, Nat.le_div_iff_mul_le htimely.period_pos]
    omega

theorem paced (htimely : heartbeat.Timely now) (span : Nat) : heartbeat.Paced now span where
  loop manager count later next := by
    have hticks := @Ticks.advance heartbeat (now + span) manager htimely.period_pos
    constructor
    · intro hticks'
      obtain ⟨rfl, rfl, rfl⟩ := hticks.unique hticks'
      exact ⟨rfl, rfl⟩
    · rintro ⟨hadvance, rfl⟩
      simpa only [hadvance] using hticks
  timely := htimely.advance span
  pos hspan := by
    obtain ⟨_, hticks⟩ := htimely.ticks (now + span)
    have hnear := htimely.near
    exact hticks.pos (by omega)
  few := htimely.advance_few span
  late := htimely.advance_of_late

theorem elapse (htimely : heartbeat.Timely now) (spans : List Nat) :
    (heartbeat.elapse now spans).1.Timely (now + spans.sum) ∧
      (heartbeat.elapse now spans).1.period = heartbeat.period ∧
      heartbeat.due + (heartbeat.elapse now spans).2 * heartbeat.period ≤
        (heartbeat.elapse now spans).1.due := by
  induction spans generalizing heartbeat now with
  | nil => simpa [Heartbeat.elapse] using htimely
  | cons span spans ih =>
    obtain ⟨hrest, hperiod, hdue⟩ := ih (htimely.advance span)
    have hfirst := htimely.due_add_le (now + span)
    rw [htimely.advance_period] at hperiod hdue
    simp only [Heartbeat.elapse, List.sum_cons, ← Nat.add_assoc]
    refine ⟨hrest, hperiod, ?_⟩
    rw [Nat.add_mul]
    omega

theorem elapse_lt (htimely : heartbeat.Timely now) (spans : List Nat) :
    (heartbeat.elapse now spans).2 * heartbeat.period < spans.sum + heartbeat.period := by
  obtain ⟨hafter, hperiod, hdue⟩ := htimely.elapse spans
  have hahead := htimely.ahead
  have hnear := hafter.near
  rw [hperiod] at hnear
  omega

end Timely

/--
However the clock moves from the start of the task on, in steps of any length, the deadline lies ahead, by a
period at most. Nothing is swept at the start, and never more than once for each period gone by. The next
advance sweeps at least once if it is a period or longer; if the sweep is late there is just that one, and the
schedule is that of a task just started. Whatever an advance was, the sweeps after it are for the time that
passes then.
-/
theorem sweeps_keep_pace (period began : Nat) (hperiod : 1 ≤ period) (spans : List Nat) :
    start? period began = some (start period began) ∧
      (start period began).advance began = (start period began, 0) ∧
      ∃ heartbeat count, (start period began).elapse began spans = (heartbeat, count) ∧
        count ≤ spans.sum / period ∧ heartbeat.period = period ∧
        heartbeat.Timely (began + spans.sum) ∧
        (∀ span, heartbeat.Paced (began + spans.sum) span) ∧
        ∀ more, (heartbeat.elapse (began + spans.sum) more).2 * period < more.sum + period := by
  have hstart := timely_start hperiod began
  have hstarted : start? period began = some (start period began) := by
    simp [start?, Nat.ne_of_gt hperiod]
  have hnone : (start period began).advance began = (start period began, 0) :=
    catchUp_of_lt_due hstart.ahead
  obtain ⟨htimely, hkept, hdue⟩ := hstart.elapse spans
  have hcount : ((start period began).elapse began spans).2 ≤ spans.sum / period := by
    have hnear := htimely.near
    rw [Nat.le_div_iff_mul_le hperiod]
    simp only [start] at hdue hkept hnear ⊢
    omega
  refine ⟨hstarted, hnone, _, _, rfl, hcount, hkept, htimely, htimely.paced, ?_⟩
  intro more
  have hmore := htimely.elapse_lt more
  rwa [hkept] at hmore

theorem sweeps_keep_pace_of_late_sweep :
    1 ≤ 3 ∧ (start 3 0).elapse 0 [2, 1, 40] = (⟨3, 46⟩, 2) ∧ 2 ≤ 43 / 3 ∧
      Timely ⟨3, 46⟩ 43 ∧ ∀ more, (elapse ⟨3, 46⟩ 43 more).2 * 3 < more.sum + 3 := by
  have hrun : (start 3 0).elapse 0 [2, 1, 40] = (⟨3, 46⟩, 2) := by decide
  obtain ⟨-, -, heartbeat, count, helapse, hcount, -, htimely, -, hmore⟩ :=
    sweeps_keep_pace 3 0 (by decide) [2, 1, 40]
  obtain ⟨rfl, rfl⟩ := Prod.mk.inj (hrun.symm.trans helapse)
  exact ⟨by decide, hrun, hcount, htimely, hmore⟩

end Advances

end Herald.Live.Heartbeat
