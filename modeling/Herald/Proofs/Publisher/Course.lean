import Herald.Publisher.Desk
import Herald.Proofs.Publisher.Calls
import Mathlib.Data.List.Basic
import Mathlib.Data.List.Induction

/-!
What a desk holds after any course of steps, told from the steps alone. A publisher has the handlers of
the chain of derivations that made it. A buffer holds what was staged on it since it was last taken
away, so that whatever was staged is there for one step at most to take.
-/

namespace Herald.Desk

variable {Handler : Type} {desk : Desk Handler} {step : Step Handler} {steps : List (Step Handler)}
  {name other buffer : String}

/-! Entries under names. -/

section Entries

variable {α : Type}

theorem lookup_without_self (entries : List (String × α)) (name : String) :
    (without entries name).lookup name = none := by
  induction entries with
  | nil => rfl
  | cons entry entries ih =>
      by_cases hname : entry.1 = name
      · rw [without, List.filter_cons_of_neg (by simpa using hname)]
        exact ih
      · rw [without, List.filter_cons_of_pos (by simpa using hname), List.lookup_cons,
          beq_false_of_ne (Ne.symm hname)]
        exact ih

theorem lookup_without_of_ne (hother : other ≠ name) (entries : List (String × α)) :
    (without entries name).lookup other = entries.lookup other := by
  induction entries with
  | nil => rfl
  | cons entry entries ih =>
      by_cases hname : entry.1 = name
      · have hentry : other ≠ entry.1 := hname.symm ▸ hother
        rw [without, List.filter_cons_of_neg (by simpa using hname), List.lookup_cons,
          beq_false_of_ne hentry]
        exact ih
      · rw [without, List.filter_cons_of_pos (by simpa using hname), List.lookup_cons,
          List.lookup_cons]
        split
        · rfl
        · exact ih

theorem lookup_put_self (entries : List (String × α)) (name : String) (value : α) :
    (put entries name value).lookup name = some value :=
  List.lookup_cons_self

theorem lookup_put_of_ne (hother : other ≠ name) (entries : List (String × α)) (value : α) :
    (put entries name value).lookup other = entries.lookup other := by
  rw [put, List.lookup_cons, beq_false_of_ne hother]
  exact lookup_without_of_ne hother entries

end Entries

theorem publisher_keep_self (desk : Desk Handler) (name : String) (publisher : Publisher Handler) :
    (desk.keep name publisher).publisher name = publisher := by
  rw [Desk.publisher, keep, lookup_put_self]
  rfl

theorem publisher_keep_of_ne (hother : other ≠ name) (publisher : Publisher Handler) :
    (desk.keep name publisher).publisher other = desk.publisher other := by
  rw [Desk.publisher, keep, lookup_put_of_ne hother]
  rfl

theorem buffer_fill_self (desk : Desk Handler) (name : String) (pending : Pending) :
    (desk.fill name pending).buffer name = pending := by
  rw [buffer, fill, lookup_put_self]
  rfl

theorem buffer_fill_of_ne (hother : other ≠ name) (pending : Pending) :
    (desk.fill name pending).buffer other = desk.buffer other := by
  rw [buffer, fill, lookup_put_of_ne hother]
  rfl

theorem buffer_clear_self (desk : Desk Handler) (name : String) :
    (desk.clear name).buffer name = .empty := by
  rw [buffer, clear, lookup_without_self]
  rfl

theorem buffer_clear_of_ne (hother : other ≠ name) :
    (desk.clear name).buffer other = desk.buffer other := by
  rw [buffer, clear, lookup_without_of_ne hother]
  rfl

/-! Courses of steps. -/

def after (desk : Desk Handler) (steps : List (Step Handler)) : Desk Handler :=
  steps.foldl (fun desk step => (desk.step step).1) desk

theorem after_append (desk : Desk Handler) (earlier later : List (Step Handler)) :
    desk.after (earlier ++ later) = (desk.after earlier).after later :=
  List.foldl_append

/-- Each step is answered by the desk as the steps before it leave it. -/
theorem getElem?_run {index : Nat} (hstep : steps[index]? = some step) (desk : Desk Handler) :
    (desk.run steps)[index]? = some ((desk.after (steps.take index)).step step).2 := by
  induction steps generalizing desk index with
  | nil => cases hstep
  | cons first steps ih =>
      cases index with
      | zero =>
          cases hstep
          rfl
      | succ index => exact ih hstep _

/-! Publishers. -/

/--
The handlers of the chain of derivations that made the publisher of a name, by the steps so far, the
latest first.
-/
def chain : List (Step Handler) → String → List Handler
  | [], _ => []
  | .create made :: earlier, name => if made = name then [] else chain earlier name
  | .derive made source handler :: earlier, name =>
    if made = name then chain earlier source ++ [handler] else chain earlier name
  | _ :: earlier, name => chain earlier name

theorem withHandler_ofHandlers (registered : List Handler) (handler : Handler) :
    (Publisher.ofHandlers registered).withHandler handler = .ofHandlers (registered ++ [handler]) := by
  rw [Publisher.ofHandlers, Publisher.ofHandlers, List.foldl_append]
  rfl

theorem publisher_after (steps : List (Step Handler)) (name : String) :
    (empty.after steps).publisher name = .ofHandlers (chain steps.reverse name) := by
  induction steps using List.reverseRecOn generalizing name with
  | nil => rfl
  | append_singleton earlier step ih =>
      rw [after_append, List.reverse_append]
      change ((empty.after earlier).step step).1.publisher name =
        .ofHandlers (chain (step :: earlier.reverse) name)
      cases step with
      | create made =>
          rw [chain]
          split
          case isTrue hmade =>
            subst hmade
            exact publisher_keep_self ..
          case isFalse hmade =>
            rw [← ih]
            exact publisher_keep_of_ne (Ne.symm hmade) _
      | derive made source handler =>
          rw [chain]
          split
          case isTrue hmade =>
            subst hmade
            rw [← withHandler_ofHandlers, ← ih]
            exact publisher_keep_self ..
          case isFalse hmade =>
            rw [← ih]
            exact publisher_keep_of_ne (Ne.symm hmade) _
      | _ => exact ih name

/-! Buffers. -/

namespace Step

def stages (buffer : String) : Step Handler → Bool
  | .stage name _ => name = buffer
  | _ => false

/-- Whether a buffer is gone after the step. -/
def removes (buffer : String) : Step Handler → Bool
  | .discard name | .drain name | .drainTo name _ => name = buffer
  | _ => false

def event? : Step Handler → Option Event
  | .stage _ event => some event
  | _ => none

end Step

/-- Whether the step at a place stages on a buffer that no step after it takes away. -/
def remains (steps : List (Step Handler)) (buffer : String) (place : Nat) : Bool :=
  steps[place]?.any (·.stages buffer) && (steps.drop (place + 1)).all (!·.removes buffer)

/-- The places of the steps that staged what is on a buffer. -/
def places (steps : List (Step Handler)) (buffer : String) : List Nat :=
  (List.range steps.length).filter (remains steps buffer)

def eventAt? (steps : List (Step Handler)) (place : Nat) : Option Event :=
  steps[place]?.bind Step.event?

def staged (steps : List (Step Handler)) (buffer : String) : List Event :=
  (places steps buffer).filterMap (eventAt? steps)

theorem stages_iff {step : Step Handler} :
    step.stages buffer = true ↔ ∃ event, step = .stage buffer event := by
  cases step with
  | stage name event => simp [Step.stages]
  | _ => simp [Step.stages]

/-- At the place something was staged on the buffer, and no step after it takes the buffer away. -/
theorem mem_places_iff {place : Nat} :
    place ∈ places steps buffer ↔
      (∃ event, steps[place]? = some (.stage buffer event)) ∧
        ∀ later step, place < later → steps[later]? = some step → step.removes buffer = false := by
  have hkept : (steps.drop (place + 1)).all (!·.removes buffer) = true ↔
      ∀ later step, place < later → steps[later]? = some step → step.removes buffer = false := by
    rw [List.all_eq_true]
    constructor
    · intro hall later step hlater hstep
      have hindex : place + 1 + (later - (place + 1)) = later := by omega
      have hmem : step ∈ steps.drop (place + 1) := by
        apply List.mem_of_getElem? (i := later - (place + 1))
        rw [List.getElem?_drop, hindex, hstep]
      simpa using hall step hmem
    · intro hnone step hmem
      obtain ⟨index, hindex⟩ := List.mem_iff_getElem?.mp hmem
      rw [List.getElem?_drop] at hindex
      simpa using hnone _ step (by omega) hindex
  rw [places, List.mem_filter, List.mem_range, remains, Bool.and_eq_true, hkept, Option.any_eq_true]
  constructor
  · rintro ⟨-, ⟨step, hstep, hstages⟩, hnone⟩
    obtain ⟨event, rfl⟩ := stages_iff.mp hstages
    exact ⟨⟨event, hstep⟩, hnone⟩
  · rintro ⟨⟨event, hstep⟩, hnone⟩
    have hlt := (List.getElem?_eq_some_iff.mp hstep).1
    exact ⟨hlt, ⟨_, hstep, stages_iff.mpr ⟨event, rfl⟩⟩, hnone⟩

theorem pairwise_places (steps : List (Step Handler)) (buffer : String) :
    (places steps buffer).Pairwise (· < ·) :=
  List.pairwise_lt_range.filter _

/-- Whatever was staged is there for one step only to take away. -/
theorem le_of_mem_places {earlier later place : Nat} {taken : String}
    (hstep : steps[earlier]? = some step) (hremoves : step.removes taken = true)
    (hearlier : place ∈ places (steps.take earlier) taken)
    (hlater : place ∈ places (steps.take later) buffer) : later ≤ earlier := by
  apply Nat.le_of_not_lt
  intro hlt
  obtain ⟨⟨event, hevent⟩, -⟩ := mem_places_iff.mp hearlier
  obtain ⟨⟨other, hother⟩, hnone⟩ := mem_places_iff.mp hlater
  have hplace : place < earlier := by
    have hbound := (List.getElem?_eq_some_iff.mp hevent).1
    rw [List.length_take] at hbound
    omega
  rw [List.getElem?_take_of_lt hplace] at hevent
  rw [List.getElem?_take_of_lt (Nat.lt_trans hplace hlt), hevent] at hother
  cases hother
  have hkept := hnone earlier step hplace (by rwa [List.getElem?_take_of_lt hlt])
  rw [hremoves] at hkept
  cases hkept

theorem remains_append (buffer : String) (step : Step Handler) {place : Nat}
    (hplace : place < steps.length) :
    remains (steps ++ [step]) buffer place = (remains steps buffer place && !step.removes buffer) := by
  rw [remains, remains, List.getElem?_append_left hplace,
    List.drop_append_of_le_length hplace, List.all_append, ← Bool.and_assoc]
  exact congrArg (_ && ·) (Bool.and_true _)

theorem remains_last (steps : List (Step Handler)) (step : Step Handler) (buffer : String) :
    remains (steps ++ [step]) buffer steps.length = step.stages buffer := by
  rw [remains, List.getElem?_concat_length, List.drop_eq_nil_of_le (by simp)]
  exact Bool.and_true _

theorem places_append (steps : List (Step Handler)) (step : Step Handler) (buffer : String) :
    places (steps ++ [step]) buffer =
      (if step.removes buffer then [] else places steps buffer) ++
        if step.stages buffer then [steps.length] else [] := by
  have hearlier : (List.range steps.length).filter (remains (steps ++ [step]) buffer) =
      if step.removes buffer then [] else places steps buffer := by
    have hcongr : (List.range steps.length).filter (remains (steps ++ [step]) buffer) =
        (List.range steps.length).filter fun place =>
          remains steps buffer place && !step.removes buffer :=
      List.filter_congr fun place hplace => remains_append buffer step (List.mem_range.mp hplace)
    rw [hcongr]
    cases step.removes buffer with
    | true => simp
    | false => simp [places]
  rw [places, List.length_append, List.length_singleton, List.range_succ, List.filter_append,
    hearlier, List.filter_singleton, remains_last, Bool.cond_eq_ite]

theorem filterMap_eventAt?_append (steps : List (Step Handler)) (step : Step Handler)
    (buffer : String) :
    (places steps buffer).filterMap (eventAt? (steps ++ [step])) = staged steps buffer := by
  apply List.filterMap_congr
  intro place hplace
  have hlt := List.mem_range.mp (List.mem_filter.mp hplace).1
  rw [eventAt?, eventAt?, List.getElem?_append_left hlt]

theorem staged_append (steps : List (Step Handler)) (step : Step Handler) (buffer : String) :
    staged (steps ++ [step]) buffer =
      (if step.removes buffer then [] else staged steps buffer) ++
        if step.stages buffer then step.event?.toList else [] := by
  rw [staged, places_append, List.filterMap_append]
  congr 1
  · split
    · rfl
    · exact filterMap_eventAt?_append steps step buffer
  · have hlast : eventAt? (steps ++ [step]) steps.length = step.event? := by
      rw [eventAt?, List.getElem?_concat_length, Option.bind_some]
    split
    · rw [List.filterMap_cons, hlast]
      cases step.event? with
      | none => rfl
      | some event => rfl
    · rfl

/-- A step empties a buffer that it takes away, and adds what it stages. -/
theorem buffer_step (desk : Desk Handler) (step : Step Handler) (name : String) :
    (desk.step step).1.buffer name =
      ⟨(if step.removes name then [] else (desk.buffer name).events) ++
        if step.stages name then step.event?.toList else []⟩ := by
  have hquiet : desk.buffer name = ⟨(desk.buffer name).events ++ []⟩ := by rw [List.append_nil]
  have hcleared (cleared : String) : (desk.clear cleared).buffer name =
      ⟨(if decide (cleared = name) then [] else (desk.buffer name).events) ++ []⟩ := by
    by_cases hname : cleared = name
    · rw [if_pos (decide_eq_true hname), hname]
      exact buffer_clear_self ..
    · rw [if_neg (by simpa using hname), buffer_clear_of_ne (Ne.symm hname)]
      exact hquiet
  cases step with
  | create made => exact hquiet
  | derive made source handler => exact hquiet
  | publish made events => exact hquiet
  | stage filled event =>
      change (desk.fill filled ((desk.buffer filled).stage event)).buffer name = _
      by_cases hname : filled = name
      · subst hname
        have hstages : (Step.stage filled event : Step Handler).stages filled = true := by
          simp [Step.stages]
        rw [buffer_fill_self, if_pos hstages]
        rfl
      · have hstages : ¬(Step.stage filled event : Step Handler).stages name = true := by
          simpa [Step.stages] using hname
        rw [buffer_fill_of_ne (Ne.symm hname), if_neg hstages]
        exact hquiet
  | look filled =>
      change (desk.fill filled (desk.buffer filled)).buffer name = _
      by_cases hname : filled = name
      · subst hname
        rw [buffer_fill_self]
        exact hquiet
      · rw [buffer_fill_of_ne (Ne.symm hname)]
        exact hquiet
  | discard cleared => exact hcleared cleared
  | drain cleared => exact hcleared cleared
  | drainTo cleared publisher => exact hcleared cleared

theorem buffer_after (steps : List (Step Handler)) (name : String) :
    (empty.after steps).buffer name = ⟨staged steps name⟩ := by
  induction steps using List.reverseRecOn with
  | nil => rfl
  | append_singleton earlier step ih =>
      rw [after_append, staged_append]
      change ((empty.after earlier).step step).1.buffer name = _
      rw [buffer_step, ih]

end Herald.Desk
