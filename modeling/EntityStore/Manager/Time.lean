import EntityStore.Number.Binary
import EntityStore.Number.Limits

/-!
# Simulated time

The time that is handed to processors: how long the tick is, how much time has passed with it, and
its number.  The sum of durations can pass the largest duration, which is the one way in which
advancing fails.
-/

namespace EntityStore

/-- A span of time. -/
structure Duration where
  /-- Whole seconds. -/
  seconds : Nat
  /-- Nanoseconds beyond them, fewer than a thousand million. -/
  nanoseconds : Nat
  deriving DecidableEq, Repr

namespace Duration

/-- The nanoseconds of a second. -/
def perSecond : Nat := 1000000000

/-- No time at all. -/
def zero : Duration := ⟨0, 0⟩

/-- The sum of two durations, none past the largest number of seconds of a machine word. -/
def add? (a b : Duration) : Option Duration :=
  let total := a.nanoseconds + b.nanoseconds
  let seconds := a.seconds + b.seconds + total / perSecond
  if seconds ≤ maxCount then some ⟨seconds, total % perSecond⟩ else none

/-- The duration in seconds as a double: both parts are rounded, and so is their sum. -/
def toSeconds (d : Duration) : Binary64 :=
  let nearest := BinaryFormat.binary64.nearest
  Binary64.ofRat (nearest d.seconds + nearest (nearest d.nanoseconds / perSecond))

end Duration

/-- The timing of one tick. -/
structure Time where
  /-- The time since the tick before. -/
  delta : Duration
  /-- All simulated time with this tick. -/
  elapsed : Duration
  /-- The number of the tick, one for the first. -/
  tick : Nat
  deriving DecidableEq, Repr

namespace Time

/-- The time before the first tick. -/
def start : Time := ⟨Duration.zero, Duration.zero, 0⟩

/-- The time of the next tick, none when the elapsed time grows past its limit. -/
def advance? (t : Time) (delta : Duration) : Option Time :=
  (t.elapsed.add? delta).map fun elapsed => ⟨delta, elapsed, t.tick + 1⟩

/-- The length of the tick in seconds. -/
def deltaSeconds (t : Time) : Binary64 := t.delta.toSeconds

end Time

end EntityStore
