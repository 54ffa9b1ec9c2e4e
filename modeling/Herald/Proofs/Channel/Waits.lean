import Herald.Channel.Broker
import Mathlib.Data.Nat.Find

/-!
The waits of a subscriber along an unending sequence of attempts. A failure doubles the wait up to the
greatest one, and an attempt that was accepted starts the waits over, so that each wait follows from how
many attempts lie behind the last accepted one. On lengths of time whose seconds have 64 bits no doubling
overflows, and the waits are the same.
-/

namespace Herald.Channel

namespace Backoff

variable {attempts : Nat → Bool} {due number : Nat}

/-! Waits by the number of the attempt, from zero. -/

/-- The wait after an attempt, should that fail. -/
def dueAt (attempts : Nat → Bool) : Nat → Nat
  | 0 => initial
  | number + 1 => next (wait (dueAt attempts number) (attempts number))

def waitAt (attempts : Nat → Bool) (number : Nat) : Nat :=
  wait (dueAt attempts number) (attempts number)

/-- The last accepted attempt up to the one with a number, or the first attempt if there is none. -/
def lastAccepted (attempts : Nat → Bool) (number : Nat) : Nat :=
  Nat.findGreatest (fun earlier => attempts earlier = true) number

theorem waitsFrom_dueAt (attempts : Nat → Bool) (start count : Nat) :
    waitsFrom (dueAt attempts start) ((List.range' start count).map attempts) =
      (List.range' start count).map (waitAt attempts) := by
  induction count generalizing start with
  | zero => rfl
  | succ count ih =>
      simp only [List.range'_succ, List.map_cons, waitsFrom]
      exact congrArg (waitAt attempts start :: ·) (ih (start + 1))

theorem waits_eq_waitAt (attempts : Nat → Bool) (count : Nat) :
    waits ((List.range count).map attempts) = (List.range count).map (waitAt attempts) := by
  rw [List.range_eq_range']
  exact waitsFrom_dueAt attempts 0 count

/-! One attempt after another. -/

theorem waitAt_zero (attempts : Nat → Bool) : waitAt attempts 0 = initial := by
  rw [waitAt, wait, dueAt, ite_self]

theorem waitAt_of_accepted (haccepted : attempts number = true) :
    waitAt attempts number = initial := by
  rw [waitAt, wait, if_pos haccepted]

theorem waitAt_succ_of_failed (hfailed : attempts (number + 1) = false) :
    waitAt attempts (number + 1) = min (waitAt attempts number * 2) greatest := by
  simp [waitAt, wait, hfailed, dueAt, next]

theorem waitAt_le_greatest (attempts : Nat → Bool) (number : Nat) :
    waitAt attempts number ≤ greatest := by
  have hinitial : initial ≤ greatest := by decide
  cases hattempt : attempts number with
  | true => simpa [waitAt_of_accepted hattempt] using hinitial
  | false =>
      cases number with
      | zero => simpa [waitAt_zero] using hinitial
      | succ number =>
          rw [waitAt_succ_of_failed hattempt]
          exact Nat.min_le_right _ greatest

/-- Along failures the wait doubles, up to the greatest one. -/
theorem waitAt_add_of_failed {count : Nat}
    (hfailed : ∀ later, number < later → later ≤ number + count → attempts later = false) :
    waitAt attempts (number + count) = min (waitAt attempts number * 2 ^ count) greatest := by
  induction count with
  | zero => simp [waitAt_le_greatest]
  | succ count ih =>
      have hlast : attempts (number + count + 1) = false := hfailed _ (by omega) (by omega)
      have hearlier := ih fun later hlater hle => hfailed later hlater (by omega)
      rw [← Nat.add_assoc, waitAt_succ_of_failed hlast, hearlier, Nat.pow_succ, ← Nat.mul_assoc]
      omega

/-! The closed form. -/

theorem waitAt_lastAccepted (attempts : Nat → Bool) (number : Nat) :
    waitAt attempts (lastAccepted attempts number) = initial := by
  cases hlast : lastAccepted attempts number with
  | zero => exact waitAt_zero attempts
  | succ last =>
      apply waitAt_of_accepted
      exact Nat.findGreatest_of_ne_zero hlast (Nat.succ_ne_zero last)

theorem waitAt_eq (attempts : Nat → Bool) (number : Nat) :
    waitAt attempts number =
      min (initial * 2 ^ (number - lastAccepted attempts number)) greatest := by
  have hle : lastAccepted attempts number ≤ number := Nat.findGreatest_le number
  have hfailed : ∀ later, lastAccepted attempts number < later →
      later ≤ lastAccepted attempts number + (number - lastAccepted attempts number) →
      attempts later = false := by
    intro later hlater hend
    rw [Nat.add_sub_cancel' hle] at hend
    exact Bool.eq_false_iff.mpr (Nat.findGreatest_is_greatest hlater hend)
  have hrun := waitAt_add_of_failed hfailed
  rwa [Nat.add_sub_cancel' hle, waitAt_lastAccepted] at hrun

theorem initial_le_waitAt (attempts : Nat → Bool) (number : Nat) :
    initial ≤ waitAt attempts number := by
  rw [waitAt_eq]
  apply Nat.le_min.mpr
  constructor
  · exact Nat.le_mul_of_pos_right initial (Nat.two_pow_pos _)
  · decide

/-- Six failures on end lead to the greatest wait, from whatever wait there was before them. -/
theorem waitAt_of_six_failed {count : Nat} (hcount : 6 ≤ count)
    (hfailed : ∀ later, number < later → later ≤ number + count → attempts later = false) :
    waitAt attempts (number + count) = greatest := by
  rw [waitAt_add_of_failed hfailed]
  apply Nat.min_eq_right
  calc greatest ≤ initial * 2 ^ 6 := by decide
    _ ≤ waitAt attempts number * 2 ^ count :=
      Nat.mul_le_mul (initial_le_waitAt attempts number) (Nat.pow_le_pow_right (by decide) hcount)

/-! Lengths of time. -/

/-- A length of time as a clock keeps it, in seconds and nanoseconds. -/
structure Duration where
  seconds : Nat
  nanoseconds : Nat
  deriving DecidableEq

namespace Duration

def ofMilliseconds (count : Nat) : Duration := ⟨count / 1000, count % 1000 * 1000000⟩

/-- Twice a length of time; none if the seconds overflow 64 bits. -/
def double? (duration : Duration) : Option Duration :=
  let nanoseconds := duration.nanoseconds * 2
  let seconds := duration.seconds * 2 + nanoseconds / 1000000000
  if seconds < 2 ^ 64 then some ⟨seconds, nanoseconds % 1000000000⟩ else none

/-- The shorter one of two lengths of time. -/
def least (duration other : Duration) : Duration :=
  if duration.seconds < other.seconds ∨
      duration.seconds = other.seconds ∧ duration.nanoseconds ≤ other.nanoseconds then duration
  else other

/-- The waits on lengths of time; none if a doubling overflows. -/
def waitsFrom? (due : Duration) : List Bool → Option (List Duration)
  | [] => some []
  | succeeded :: rest => do
    let current := if succeeded then ofMilliseconds initial else due
    let doubled ← current.double?
    let waits ← waitsFrom? (doubled.least (ofMilliseconds greatest)) rest
    return current :: waits

theorem double?_ofMilliseconds {count : Nat} (hcount : count ≤ greatest) :
    (ofMilliseconds count).double? = some (ofMilliseconds (count * 2)) := by
  have hlimit : count ≤ 30000 := hcount
  have hseconds : count / 1000 * 2 + count % 1000 * 1000000 * 2 / 1000000000 < 2 ^ 64 := by
    omega
  refine (if_pos hseconds).trans (congrArg some ?_)
  apply (mk.injEq ..).mpr
  dsimp only [ofMilliseconds]
  omega

theorem least_ofMilliseconds (count other : Nat) :
    (ofMilliseconds count).least (ofMilliseconds other) = ofMilliseconds (min count other) := by
  unfold least
  split
  case isTrue hle =>
    dsimp only [ofMilliseconds] at hle
    rw [Nat.min_eq_left (by omega)]
  case isFalse hlt =>
    dsimp only [ofMilliseconds] at hlt
    rw [Nat.min_eq_right (by omega)]

/-- No doubling overflows, and the waits are those that the backoff counts in milliseconds. -/
theorem waitsFrom?_ofMilliseconds (hdue : due ≤ greatest) (attempts : List Bool) :
    waitsFrom? (ofMilliseconds due) attempts =
      some ((Backoff.waitsFrom due attempts).map ofMilliseconds) := by
  induction attempts generalizing due with
  | nil => rfl
  | cons succeeded rest ih =>
      have hcurrent : (if succeeded then ofMilliseconds initial else ofMilliseconds due) =
          ofMilliseconds (wait due succeeded) := by
        cases succeeded <;> rfl
      have hwait : wait due succeeded ≤ greatest := by
        cases succeeded with
        | true => exact (by decide : initial ≤ greatest)
        | false => exact hdue
      have hnext : next (wait due succeeded) ≤ greatest := Nat.min_le_right _ greatest
      have hrest : waitsFrom? (ofMilliseconds (min (wait due succeeded * 2) greatest)) rest = _ :=
        ih hnext
      rw [waitsFrom?, hcurrent, double?_ofMilliseconds hwait]
      simp [least_ofMilliseconds, hrest, Backoff.waitsFrom, next]

end Duration

end Backoff

namespace Broker

/-! What a subscriber waits. -/

theorem waits_listen (topic : String) (sessions : Nat → Session) (count : Nat) :
    (listen topic ((List.range (count + 1)).map sessions)).waits =
      (List.range count).map (Backoff.waitAt fun number => (sessions number).isAccepted) := by
  rw [← Backoff.waits_eq_waitAt, listen, List.range_succ, List.map_append, List.map_singleton,
    List.dropLast_concat, List.map_map]
  rfl

/--
However many sessions of any sequence a subscriber goes through, its wait after each of them is 500 ms,
doubled for each session since the last accepted one or else since the first, and 30 s at most. So waits
are between these two, do not fall from failure to failure, have come to 30 s after six failures on end,
and are 500 ms after an accepted session. On seconds of 64 bits the doublings do not overflow.
-/
theorem subscriber_backs_off (topic : String) (sessions : Nat → Session) :
    let accepted number := (sessions number).isAccepted
    let wait := Backoff.waitAt accepted
    (∀ count, (listen topic ((List.range (count + 1)).map sessions)).waits =
      (List.range count).map wait) ∧
    (∀ number, wait number =
      min (500 * 2 ^ (number - Backoff.lastAccepted accepted number)) 30000) ∧
    (∀ number, 500 ≤ wait number ∧ wait number ≤ 30000) ∧
    (∀ number, accepted (number + 1) = false → wait number ≤ wait (number + 1)) ∧
    (∀ number count, 6 ≤ count →
      (∀ later, number < later → later ≤ number + count → accepted later = false) →
      wait (number + count) = 30000) ∧
    (∀ number, accepted number = true → wait number = 500) ∧
    ∀ count, Backoff.Duration.waitsFrom? (.ofMilliseconds 500)
        ((List.range count).map accepted) =
      some ((List.range count).map fun number => .ofMilliseconds (wait number)) := by
  intro accepted wait
  refine ⟨waits_listen topic sessions, Backoff.waitAt_eq accepted, ?_, ?_, ?_, ?_, ?_⟩
  · intro number
    exact ⟨Backoff.initial_le_waitAt accepted number, Backoff.waitAt_le_greatest accepted number⟩
  · intro number hfailed
    have hdoubled : wait (number + 1) = min (wait number * 2) 30000 :=
      Backoff.waitAt_succ_of_failed hfailed
    have hle : wait number ≤ 30000 := Backoff.waitAt_le_greatest accepted number
    omega
  · intro number count hcount hfailed
    exact Backoff.waitAt_of_six_failed hcount hfailed
  · intro number haccepted
    exact Backoff.waitAt_of_accepted haccepted
  · intro count
    have hwaits := Backoff.Duration.waitsFrom?_ofMilliseconds
      (by decide : Backoff.initial ≤ Backoff.greatest) ((List.range count).map accepted)
    have hsame : Backoff.waitsFrom Backoff.initial ((List.range count).map accepted) =
        (List.range count).map wait := Backoff.waits_eq_waitAt accepted count
    rw [hsame, List.map_map] at hwaits
    exact hwaits

/-- The first failure of all waits 500 ms, and the first one after an accepted session twice that. -/
example : Backoff.waits [false, true, false, false] = [500, 500, 1000, 2000] := by decide

end Broker

end Herald.Channel
