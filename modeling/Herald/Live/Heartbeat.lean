import Herald.Live.Manager

/-!
The schedule of heartbeats. The first sweep is due one period after the start. A sweep that runs
late by more than a short grace puts the next one a full period later; otherwise the next one is due
a period after the last was due. Times are in milliseconds.
-/

namespace Herald.Live

structure Heartbeat where
  period : Nat
  due : Nat
  deriving DecidableEq, Repr

namespace Heartbeat

def grace : Nat := 5

def start (period now : Nat) : Heartbeat := ⟨period, now + period⟩

/-- The schedule of a period from the configuration; a period of zero never gets to a sweep. -/
def start? (period now : Nat) : Option Heartbeat :=
  if period = 0 then none else some (start period now)

def swept (heartbeat : Heartbeat) (now : Nat) : Heartbeat :=
  if heartbeat.due + grace < now then { heartbeat with due := now + heartbeat.period }
  else { heartbeat with due := heartbeat.due + heartbeat.period }

/-- Runs the sweeps that are due, at most `fuel` of them; gives how many ran. -/
def catchUp (now : Nat) : (fuel : Nat) → Heartbeat → Heartbeat × Nat
  | 0, heartbeat => (heartbeat, 0)
  | fuel + 1, heartbeat =>
    if heartbeat.due ≤ now then
      let (heartbeat, sweeps) := catchUp now fuel (heartbeat.swept now)
      (heartbeat, sweeps + 1)
    else (heartbeat, 0)

/-- Lets time reach `now`; with a period of at least one, all sweeps due by then have run. -/
def advance (heartbeat : Heartbeat) (now : Nat) : Heartbeat × Nat :=
  catchUp now (grace + 2) heartbeat

end Heartbeat

def Manager.sweeps (manager : Manager) : Nat → Manager
  | 0 => manager
  | count + 1 => manager.sweep.1.sweeps count

end Herald.Live
