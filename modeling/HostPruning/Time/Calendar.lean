/-!
# The calendar

Days are counted from 1970-01-01 in the proleptic Gregorian calendar. A year is taken
to start in March, so that the leap day is its last day; a day then splits into
cycles of 400, 100, 4 and 1 years, and a month's first day is a linear formula.
-/

namespace HostPruning.Time

/-- A calendar date. -/
structure Date where
  year : Int
  month : Nat
  day : Nat
deriving DecidableEq

/-- Whether a year has 366 days. -/
def leapYear (year : Int) : Bool := year % 4 = 0 && (year % 100 ≠ 0 || year % 400 = 0)

/-- The number of days of a month; zero for a month that does not exist. -/
def daysInMonth (year : Int) : Nat → Nat
  | 2 => if leapYear year then 29 else 28
  | 4 | 6 | 9 | 11 => 30
  | 1 | 3 | 5 | 7 | 8 | 10 | 12 => 31
  | _ => 0

/-- Whether a date exists. -/
def Date.valid (date : Date) : Bool :=
  1 ≤ date.month && date.month ≤ 12 && 1 ≤ date.day && date.day ≤ daysInMonth date.year date.month

/-- The days from 0000-03-01 to 1970-01-01. -/
def epochShift : Int := 719468

/-- A day in a year that starts on the first of March; `dayOfYear` counts from zero. -/
structure MarchDay where
  year : Int
  dayOfYear : Int

/-- The number of days from 1970-01-01. -/
def MarchDay.toDays (day : MarchDay) : Int :=
  365 * day.year + day.year / 4 - day.year / 100 + day.year / 400 + day.dayOfYear - epochShift

/-- The centuries that are over in a cycle of 400 years; the leap day at the end of the
cycle belongs to the last one. -/
def centuryOf (inEra : Int) : Int := min (inEra / 36524) 3

/-- The years that are over in a cycle of four; the leap day at its end belongs to the last one. -/
def yearOf (inCycle : Int) : Int := min (inCycle / 365) 3

/-- The day that lies a number of days after 1970-01-01. -/
def MarchDay.ofDays (days : Int) : MarchDay :=
  let shifted := days + epochShift
  let era := shifted / 146097
  let inEra := shifted % 146097
  let century := centuryOf inEra
  let inCentury := inEra - 36524 * century
  let cycle := inCentury / 1461
  let inCycle := inCentury - 1461 * cycle
  let year := yearOf inCycle
  { year := 400 * era + 100 * century + 4 * cycle + year
    dayOfYear := inCycle - 365 * year }

/-- The leap days before a year, from its place in the cycles. -/
theorem leapDays_of_cycles (era : Int) {century cycle year : Int} (centuryBound : 0 ≤ century ∧ century ≤ 3)
    (cycleBound : 0 ≤ cycle ∧ cycle ≤ 24) (yearBound : 0 ≤ year ∧ year ≤ 3) :
    (400 * era + 100 * century + 4 * cycle + year) / 4 -
        (400 * era + 100 * century + 4 * cycle + year) / 100 +
        (400 * era + 100 * century + 4 * cycle + year) / 400 =
      97 * era + 24 * century + cycle := by
  omega

/-- The place of a day in the cycles is in range. -/
theorem cycles_in_range (inEra : Int) (bound : 0 ≤ inEra ∧ inEra < 146097) :
    (0 ≤ centuryOf inEra ∧ centuryOf inEra ≤ 3) ∧ 0 ≤ inEra - 36524 * centuryOf inEra ∧
      inEra - 36524 * centuryOf inEra ≤ 36524 := by
  simp only [centuryOf]
  omega

/-- The place of a day in a cycle of four years is in range. -/
theorem years_in_range (inCycle : Int) (bound : 0 ≤ inCycle ∧ inCycle < 1461) :
    (0 ≤ yearOf inCycle ∧ yearOf inCycle ≤ 3) ∧ 0 ≤ inCycle - 365 * yearOf inCycle ∧
      inCycle - 365 * yearOf inCycle ≤ 365 := by
  simp only [yearOf]
  omega

/-- Splitting a day count and counting again gives the same count. -/
theorem MarchDay.toDays_ofDays (days : Int) : (MarchDay.ofDays days).toDays = days := by
  simp only [MarchDay.ofDays, MarchDay.toDays]
  have eraBound : 0 ≤ (days + epochShift) % 146097 ∧ (days + epochShift) % 146097 < 146097 := by omega
  obtain ⟨centuryBound, low, high⟩ := cycles_in_range _ eraBound
  generalize centuryOf ((days + epochShift) % 146097) = century at *
  have cycleBound : 0 ≤ ((days + epochShift) % 146097 - 36524 * century) / 1461 ∧
      ((days + epochShift) % 146097 - 36524 * century) / 1461 ≤ 24 := by omega
  obtain ⟨yearBound, -, -⟩ := years_in_range
    ((days + epochShift) % 146097 - 36524 * century -
      1461 * (((days + epochShift) % 146097 - 36524 * century) / 1461)) (by omega)
  have leaps := leapDays_of_cycles ((days + epochShift) / 146097) centuryBound cycleBound yearBound
  omega

/-- The place of a day in its year is at most the place of the leap day. -/
theorem MarchDay.dayOfYear_ofDays (days : Int) :
    0 ≤ (MarchDay.ofDays days).dayOfYear ∧ (MarchDay.ofDays days).dayOfYear ≤ 365 := by
  simp only [MarchDay.ofDays]
  obtain ⟨-, low, high⟩ := cycles_in_range ((days + epochShift) % 146097) (by omega)
  exact (years_in_range _ (by omega)).2

/-- The months before a month in the year that starts in March. -/
def Date.monthsSinceMarch (date : Date) : Int :=
  if date.month ≤ 2 then date.month + 9 else date.month - 3

/-- The day of a date. -/
def Date.toMarchDay (date : Date) : MarchDay where
  year := if date.month ≤ 2 then date.year - 1 else date.year
  dayOfYear := (153 * date.monthsSinceMarch + 2) / 5 + (date.day - 1)

/-- The date of a day. -/
def Date.ofMarchDay (day : MarchDay) : Date :=
  let month := (5 * day.dayOfYear + 2) / 153
  { year := if month < 10 then day.year else day.year + 1
    month := (if month < 10 then month + 3 else month - 9).toNat
    day := (day.dayOfYear - (153 * month + 2) / 5 + 1).toNat }

/-- The month of a day is one of the twelve. -/
theorem Date.month_ofMarchDay {day : MarchDay}
    (bounds : 0 ≤ day.dayOfYear ∧ day.dayOfYear ≤ 365) :
    1 ≤ (Date.ofMarchDay day).month ∧ (Date.ofMarchDay day).month ≤ 12 := by
  simp only [Date.ofMarchDay]
  split <;> omega

/-- A day's date is the date of that day. -/
theorem Date.toMarchDay_ofMarchDay {day : MarchDay}
    (bounds : 0 ≤ day.dayOfYear ∧ day.dayOfYear ≤ 365) : (Date.ofMarchDay day).toMarchDay = day := by
  obtain ⟨year, dayOfYear⟩ := day
  simp only at bounds
  simp only [Date.ofMarchDay, Date.toMarchDay, Date.monthsSinceMarch, MarchDay.mk.injEq]
  by_cases early : (5 * dayOfYear + 2) / 153 < 10
  · simp only [early, if_true]
    rw [if_neg (by omega), if_neg (by omega)]
    omega
  · simp only [early, if_false]
    rw [if_pos (by omega), if_pos (by omega)]
    omega

/-- The number of days from 1970-01-01 to a date. -/
def Date.toDays (date : Date) : Int := date.toMarchDay.toDays

/-- The date that lies a number of days after 1970-01-01. -/
def Date.ofDays (days : Int) : Date := Date.ofMarchDay (MarchDay.ofDays days)

/-- Counting the days to the date of a day count gives the count back. -/
theorem Date.toDays_ofDays (days : Int) : (Date.ofDays days).toDays = days := by
  rw [Date.toDays, Date.ofDays, Date.toMarchDay_ofMarchDay (MarchDay.dayOfYear_ofDays days),
    MarchDay.toDays_ofDays]

end HostPruning.Time
