import HostPruning.Time.Calendar

/-!
# Moments

A moment is a wall-clock reading together with the offset from UTC it was read at.
Moments compare by the instant they name; the offset is kept because it is written
back. Readings run from the first nanosecond of the year -9999 to the last one of the
year 9999, and adding seconds stops at those two readings.
-/

namespace HostPruning

/-- A wall-clock reading, in nanoseconds since 1970-01-01T00:00:00 on that clock, and the
seconds the clock is ahead of UTC. -/
structure Moment where
  wall : Int
  offset : Int
deriving DecidableEq

namespace Moment

open Time

/-- Nanoseconds in a second. -/
def nanosPerSecond : Int := 1000000000

/-- Seconds in a day. -/
def secondsPerDay : Int := 86400

/-- Nanoseconds in a day. -/
def nanosPerDay : Int := 86400000000000

/-- Nanoseconds since 1970-01-01T00:00:00Z. -/
def unixNanos (moment : Moment) : Int := moment.wall - moment.offset * nanosPerSecond

/-- The moment in UTC of an instant. -/
def ofUnixNanos (nanos : Int) : Moment := ⟨nanos, 0⟩

/-- The moment in UTC some seconds after 1970-01-01T00:00:00Z. -/
def ofUnixSeconds (seconds : Int) : Moment := ⟨seconds * nanosPerSecond, 0⟩

/-- Moments are ordered by their instants. -/
instance : LT Moment := ⟨fun left right => left.unixNanos < right.unixNanos⟩

instance : LE Moment := ⟨fun left right => left.unixNanos ≤ right.unixNanos⟩

instance : DecidableLT Moment := fun left right =>
  inferInstanceAs (Decidable (left.unixNanos < right.unixNanos))

instance : DecidableLE Moment := fun left right =>
  inferInstanceAs (Decidable (left.unixNanos ≤ right.unixNanos))

theorem lt_def {left right : Moment} : left < right ↔ left.unixNanos < right.unixNanos := Iff.rfl

theorem le_def {left right : Moment} : left ≤ right ↔ left.unixNanos ≤ right.unixNanos := Iff.rfl

/-- The first reading of the year -9999. -/
def leastWall : Int := (Date.toDays ⟨-9999, 1, 1⟩) * nanosPerDay

/-- The last reading of the year 9999. -/
def greatestWall : Int := (Date.toDays ⟨9999, 12, 31⟩) * nanosPerDay + (nanosPerDay - 1)

/-- Whether a reading is one a moment can have. -/
def representable (wall : Int) : Bool := leastWall ≤ wall && wall ≤ greatestWall

/-- The nearest representable reading. -/
def saturate (wall : Int) : Int := max leastWall (min wall greatestWall)

/-- Move a moment by some seconds, stopping at the last representable reading. -/
def addSeconds (moment : Moment) (seconds : Int) : Moment :=
  { moment with wall := saturate (moment.wall + seconds * nanosPerSecond) }

/-- Moving keeps the offset. -/
@[simp]
theorem offset_addSeconds (moment : Moment) (seconds : Int) :
    (moment.addSeconds seconds).offset = moment.offset := rfl

/-- A move that stays in range is exact. -/
theorem unixNanos_addSeconds {moment : Moment} {seconds : Int}
    (inRange : representable (moment.wall + seconds * nanosPerSecond) = true) :
    (moment.addSeconds seconds).unixNanos = moment.unixNanos + seconds * nanosPerSecond := by
  simp only [representable, Bool.and_eq_true, decide_eq_true_eq] at inRange
  simp only [addSeconds, unixNanos, saturate]
  omega

/-- The date on the wall. -/
def date (moment : Moment) : Date := Date.ofDays (moment.wall / nanosPerDay)

/-- The nanoseconds since midnight on the wall. -/
def nanosOfDay (moment : Moment) : Nat := (moment.wall % nanosPerDay).toNat

end Moment

end HostPruning
