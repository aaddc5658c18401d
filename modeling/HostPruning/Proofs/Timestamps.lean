import Mathlib.Algebra.Ring.Nat
import HostPruning.Time.Rfc3339

/-!
# Moments and their texts

A moment is read back from its text (`parseRfc3339_rfc3339`). The text has a number of fixed width
for every part but the fraction, so there is one lemma for reading such a number, one for
the fraction and one for the offset; what is left is that the date of a moment exists
(`Date.valid_ofDays`) and that the parts add up to the moment again.
-/

namespace HostPruning.Time

/-! ### The calendar -/

/-- A year that has a day 365, counted from its first of March, ends in a leap day. -/
theorem MarchDay.leapYear_of_last {days : Int} (last : (MarchDay.ofDays days).dayOfYear = 365) :
    leapYear ((MarchDay.ofDays days).year + 1) = true := by
  simp only [MarchDay.ofDays] at last ⊢
  have eraBound : 0 ≤ (days + epochShift) % 146097 ∧ (days + epochShift) % 146097 < 146097 := by omega
  generalize (days + epochShift) / 146097 = era
  generalize (days + epochShift) % 146097 = inEra at *
  obtain ⟨centuryBound, low, high⟩ := cycles_in_range inEra eraBound
  -- Only the last century of an era has a day after its 25th cycle but one day is missing there.
  have lastCentury : inEra - 36524 * centuryOf inEra = 36524 → centuryOf inEra = 3 := by
    simp only [centuryOf]
    omega
  generalize centuryOf inEra = century at *
  generalize inEra - 36524 * century = inCentury at *
  have lastOfCycle : inCentury - 1461 * (inCentury / 1461) = 1460 := by
    simp only [yearOf] at last
    omega
  have lastYear : yearOf (inCentury - 1461 * (inCentury / 1461)) = 3 := by
    rw [lastOfCycle]
    decide
  rw [lastYear, leapYear]
  have divides : (400 * era + 100 * century + 4 * (inCentury / 1461) + 3 + 1) % 4 = 0 := by omega
  have exception : (400 * era + 100 * century + 4 * (inCentury / 1461) + 3 + 1) % 100 ≠ 0 ∨
      (400 * era + 100 * century + 4 * (inCentury / 1461) + 3 + 1) % 400 = 0 := by omega
  simpa [divides] using exception

/-- A month of a year that starts in March has room for its days, and February for a leap day
where there is one. -/
theorem Date.day_ofMarchDay {day : MarchDay} (bounds : 0 ≤ day.dayOfYear ∧ day.dayOfYear ≤ 365)
    (leap : day.dayOfYear = 365 → leapYear (day.year + 1) = true) :
    1 ≤ (Date.ofMarchDay day).day ∧
      (Date.ofMarchDay day).day ≤ daysInMonth (Date.ofMarchDay day).year (Date.ofMarchDay day).month := by
  obtain ⟨year, dayOfYear⟩ := day
  simp only [Date.ofMarchDay] at bounds leap ⊢
  refine ⟨by omega, ?_⟩
  have months : 0 ≤ (5 * dayOfYear + 2) / 153 ∧ (5 * dayOfYear + 2) / 153 ≤ 11 := by omega
  have within : dayOfYear - (153 * ((5 * dayOfYear + 2) / 153) + 2) / 5 + 1 ≤
      (153 * ((5 * dayOfYear + 2) / 153 + 1) + 2) / 5 - (153 * ((5 * dayOfYear + 2) / 153) + 2) / 5 := by
    omega
  generalize (5 * dayOfYear + 2) / 153 = month at *
  have known : month = 0 ∨ month = 1 ∨ month = 2 ∨ month = 3 ∨ month = 4 ∨ month = 5 ∨ month = 6 ∨
      month = 7 ∨ month = 8 ∨ month = 9 ∨ month = 10 ∨ month = 11 := by omega
  rcases known with rfl | rfl | rfl | rfl | rfl | rfl | rfl | rfl | rfl | rfl | rfl | rfl
  case inr.inr.inr.inr.inr.inr.inr.inr.inr.inr.inr =>
    by_cases last : dayOfYear = 365
    · simp [daysInMonth, leap last]
      omega
    · have room : 28 ≤ daysInMonth (year + 1) 2 := by
        simp only [daysInMonth]
        split <;> omega
      simp
      omega
  all_goals
    simp [daysInMonth]
    omega

/-- The date of a day exists. -/
theorem Date.valid_ofDays (days : Int) : (Date.ofDays days).valid = true := by
  have bounds := MarchDay.dayOfYear_ofDays days
  obtain ⟨firstMonth, lastMonth⟩ := Date.month_ofMarchDay bounds
  obtain ⟨firstDay, lastDay⟩ := Date.day_ofMarchDay bounds MarchDay.leapYear_of_last
  simp only [Date.valid, Bool.and_eq_true, decide_eq_true_eq]
  exact ⟨⟨⟨firstMonth, lastMonth⟩, firstDay⟩, lastDay⟩

/-- The year of a day is one of the 400 years of its cycle. -/
theorem MarchDay.year_ofDays (days : Int) :
    400 * ((days + epochShift) / 146097) ≤ (MarchDay.ofDays days).year ∧
      (MarchDay.ofDays days).year < 400 * ((days + epochShift) / 146097) + 400 := by
  simp only [MarchDay.ofDays]
  obtain ⟨centuryBound, inCenturyLow, inCenturyHigh⟩ :=
    cycles_in_range ((days + epochShift) % 146097) (by omega)
  generalize centuryOf ((days + epochShift) % 146097) = century at *
  generalize (days + epochShift) % 146097 - 36524 * century = inCentury at *
  obtain ⟨yearBound, -, -⟩ := years_in_range (inCentury - 1461 * (inCentury / 1461)) (by omega)
  omega

/-- The years of the first 24 cycles of 400 years have four digits. -/
theorem Date.year_ofDays {days : Int} (low : 0 ≤ days + epochShift) (high : days + epochShift < 24 * 146097) :
    0 ≤ (Date.ofDays days).year ∧ (Date.ofDays days).year ≤ 9999 := by
  have march := MarchDay.year_ofDays days
  simp only [Date.ofDays, Date.ofMarchDay]
  split <;> omega

/-! ### Numbers of fixed width -/

theorem isDigit_of_mem_padded {width number : Nat} {char : Char} (present : char ∈ padded width number) :
    char.isDigit = true := by
  rcases List.mem_append.1 present with zero | digit
  · rw [List.eq_of_mem_replicate zero]
    decide
  · exact Nat.isDigit_of_mem_toDigits (by decide) (by decide) digit

theorem length_padded {width number : Nat} (wide : 0 < width) (fits : number < 10 ^ width) :
    (padded width number).length = width := by
  have short := (Nat.length_toDigits_le_iff (by decide) wide).2 fits
  simp only [padded, List.length_append, List.length_replicate]
  omega

/-- A number is spelled by its padded digits. -/
theorem ofDigitChars_padded (width number : Nat) :
    Nat.ofDigitChars 10 (padded width number) 0 = number := by
  rw [padded, Nat.ofDigitChars_append, Nat.ofDigitChars_replicate_zero, Nat.mul_zero,
    Nat.ofDigitChars_ten_toDigits]

theorem readDigits_append (part : String) {digits : List Char}
    (decimal : ∀ char ∈ digits, char.isDigit = true) (value : Nat) (rest : List Char) :
    readDigits part digits.length value (digits ++ rest) =
      .ok (Nat.ofDigitChars 10 digits value, rest) := by
  induction digits generalizing value with
  | nil => rfl
  | cons char digits inductionHypothesis =>
      have first := decimal char List.mem_cons_self
      have later := inductionHypothesis fun other among => decimal other (List.mem_cons_of_mem _ among)
      rw [List.length_cons, List.cons_append, readDigits, if_pos first, later,
        Nat.ofDigitChars_cons, Nat.mul_comm]
      rfl

/-- A number is read back in its width. -/
theorem readDigits_padded (part : String) (width number : Nat) (wide : 0 < width)
    (fits : number < 10 ^ width) (rest : List Char) :
    readDigits part width 0 (padded width number ++ rest) = .ok (number, rest) := by
  have decimal : ∀ char ∈ padded width number, char.isDigit = true := fun _ => isDigit_of_mem_padded
  have read := readDigits_append part decimal 0 rest
  rwa [length_padded wide fits, ofDigitChars_padded] at read

/-! ### Fractions -/

/-- Whether digits end where a text goes on: what follows them is no digit. -/
def DigitsEnd (rest : List Char) : Prop := ∀ char ∈ rest.head?, char.isDigit = false

/-- The nanoseconds of the digits of a fraction, of which the first counts for a unit. -/
def fractionNanos (unit : Nat) : List Char → Nat
  | [] => 0
  | char :: rest => (char.toNat - 48) * unit + fractionNanos (unit / 10) rest

theorem readFraction_append {digits : List Char} (decimal : ∀ char ∈ digits, char.isDigit = true)
    {rest : List Char} (ended : DigitsEnd rest) (unit value : Nat) :
    readFraction unit value (digits ++ rest) = (value + fractionNanos unit digits, rest) := by
  induction digits generalizing unit value with
  | nil =>
      cases rest with
      | nil => rfl
      | cons char rest =>
          rw [List.nil_append, readFraction, ended char rfl]
          rfl
  | cons char digits inductionHypothesis =>
      have first := decimal char List.mem_cons_self
      have later := inductionHypothesis fun other among => decimal other (List.mem_cons_of_mem _ among)
      rw [List.cons_append, readFraction, if_pos first, later, fractionNanos, Nat.add_assoc]

theorem fractionNanos_zeros (unit count : Nat) : fractionNanos unit (List.replicate count '0') = 0 := by
  induction count generalizing unit with
  | zero => rfl
  | succ count inductionHypothesis => simp [List.replicate_succ, fractionNanos, inductionHypothesis]

/-- Trailing zeros count for nothing. -/
theorem fractionNanos_append_zeros (unit count : Nat) (digits : List Char) :
    fractionNanos unit (digits ++ List.replicate count '0') = fractionNanos unit digits := by
  induction digits generalizing unit with
  | nil => exact fractionNanos_zeros unit count
  | cons char digits inductionHypothesis =>
      rw [List.cons_append, fractionNanos, fractionNanos, inductionHypothesis]

/-- Digits that reach down to single nanoseconds count as the number they spell. -/
theorem fractionNanos_eq (char : Char) (digits : List Char) :
    fractionNanos (10 ^ digits.length) (char :: digits) = Nat.ofDigitChars 10 (char :: digits) 0 := by
  induction digits generalizing char with
  | nil => simp [fractionNanos, Nat.ofDigitChars_cons, Nat.ofDigitChars_nil]
  | cons next digits inductionHypothesis =>
      have spelled : Nat.ofDigitChars 10 (char :: next :: digits) 0 =
          10 ^ (digits.length + 1) * (char.toNat - 48) + Nat.ofDigitChars 10 (next :: digits) 0 := by
        rw [Nat.ofDigitChars_cons, Nat.ofDigitChars_eq_ofDigitChars_zero, Nat.mul_zero, Nat.zero_add]
        rfl
      rw [spelled, fractionNanos, List.length_cons, Nat.pow_succ, Nat.mul_div_cancel _ (by decide),
        inductionHypothesis, Nat.mul_comm]

/-- The nanoseconds of nine digits are the number they spell. -/
theorem fractionNanos_padded {nanos : Nat} (bounded : nanos < 10 ^ 9) :
    fractionNanos 100000000 (padded 9 nanos) = nanos := by
  have nine := length_padded (by decide) bounded
  have spelled := ofDigitChars_padded 9 nanos
  generalize padded 9 nanos = all at *
  cases all with
  | nil => simp at nine
  | cons char digits =>
      have eight : digits.length = 8 := by simpa using nine
      have place : 10 ^ digits.length = 100000000 := by simp [eight]
      rw [← spelled, ← fractionNanos_eq, place]

/-- A text is what is left of it without its trailing zeros, and these zeros. -/
theorem append_trailing_zeros (digits : List Char) :
    ∃ count, (digits.reverse.dropWhile (· = '0')).reverse ++ List.replicate count '0' = digits := by
  have zeros : ∀ char ∈ (digits.reverse.takeWhile (· = '0')).reverse, char = '0' := by
    intro char among
    have passed := List.all_eq_true.1 (List.all_takeWhile (p := (· = '0'))) char (List.mem_reverse.1 among)
    simpa using passed
  refine ⟨(digits.reverse.takeWhile (· = '0')).reverse.length, ?_⟩
  rw [← List.eq_replicate_of_mem zeros, ← List.reverse_append, List.takeWhile_append_dropWhile,
    List.reverse_reverse]

/-- The fraction of a second is read back. -/
theorem readSubsecond_fraction {nanos : Nat} (bounded : nanos < 10 ^ 9) {rest : List Char}
    (ended : DigitsEnd rest) (noPoint : '.' ∉ rest.head?) :
    readSubsecond (fraction nanos ++ rest) = .ok (nanos, rest) := by
  unfold fraction
  split
  next none =>
    subst none
    cases rest with
    | nil => rfl
    | cons char rest =>
        have other : char ≠ '.' := fun same => noPoint (by simp [same])
        rw [List.nil_append]
        unfold readSubsecond
        split <;> simp_all
  next some =>
    obtain ⟨count, whole⟩ := append_trailing_zeros (padded 9 nanos)
    have worth := fractionNanos_padded bounded
    have decimal : ∀ char ∈ padded 9 nanos, char.isDigit = true := fun _ => isDigit_of_mem_padded
    rw [← whole, fractionNanos_append_zeros] at worth
    rw [← whole] at decimal
    generalize ((padded 9 nanos).reverse.dropWhile (· = '0')).reverse = kept at worth decimal ⊢
    cases kept with
    | nil => exact absurd worth.symm some
    | cons char digits =>
        have first : char.isDigit = true := decimal char (by simp)
        have keptDecimal : ∀ other ∈ char :: digits, other.isDigit = true := fun other among =>
          decimal other (List.mem_append_left _ among)
        rw [List.cons_append, List.cons_append, readSubsecond, if_pos first, ← List.cons_append,
          readFraction_append keptDecimal ended, worth, Nat.zero_add]

/-! ### Offsets -/

theorem readOffset_signed {sign : Char} (signed : sign = '+' ∨ sign = '-') {hours minutes : Nat}
    (hoursFit : hours ≤ 23) (minutesFit : minutes ≤ 59) :
    readOffset (sign :: padded 2 hours ++ ':' :: padded 2 minutes) =
      .ok (if sign = '-' then -((hours : Int) * 3600 + (minutes : Int) * 60)
        else (hours : Int) * 3600 + (minutes : Int) * 60, []) := by
  have hoursRead := readDigits_padded "offset hour" 2 hours (by decide) (by omega) (':' :: padded 2 minutes)
  have minutesRead := readDigits_padded "offset minute" 2 minutes (by decide) (by omega) []
  rw [List.append_nil] at minutesRead
  have noUtc : ¬ (sign = 'Z' ∨ sign = 'z') := by
    rcases signed with rfl | rfl <;> decide
  rw [List.cons_append, readOffset, if_neg noUtc, if_pos signed, hoursRead]
  simp [Nat.not_lt.2 hoursFit, Nat.not_lt.2 minutesFit, readLiteral, minutesRead, bind, Except.bind,
    pure, Except.pure]

/-- An offset of whole minutes is read back. -/
theorem readOffset_offsetChars {offset : Int} (short : offset.natAbs < 86400) (whole : offset % 60 = 0) :
    readOffset (offsetChars offset) = .ok (offset, []) := by
  unfold offsetChars
  split
  next utc => simp [readOffset, utc]
  next away =>
    have sign : (if offset < 0 then '-' else '+') = '+' ∨ (if offset < 0 then '-' else '+') = '-' := by
      split
      · exact Or.inr rfl
      · exact Or.inl rfl
    dsimp only
    rw [readOffset_signed sign (by omega) (by omega)]
    refine congrArg (fun seconds => Except.ok (seconds, [])) ?_
    by_cases behind : offset < 0
    · rw [if_pos behind, if_pos rfl]
      omega
    · rw [if_neg behind, if_neg (by decide)]
      omega

/-- What follows the fraction is no digit and no point. -/
theorem offsetChars_head (offset : Int) : ∃ char rest, offsetChars offset = char :: rest ∧
    char.isDigit = false ∧ char ≠ '.' := by
  unfold offsetChars
  split
  · exact ⟨'Z', [], rfl, by decide⟩
  · refine ⟨if offset < 0 then '-' else '+', _, rfl, ?_⟩
    split <;> decide

/-! ### Moments -/

/-- The characters of a moment, from its parts. -/
def partChars (date : Date) (hour minute second nanos : Nat) (offset : Int) : List Char :=
  padded 4 date.year.toNat ++ '-' :: padded 2 date.month ++ '-' :: padded 2 date.day ++
    'T' :: padded 2 hour ++ ':' :: padded 2 minute ++ ':' :: padded 2 second ++ fraction nanos ++
    offsetChars offset

/-- The days of a month have two digits. -/
theorem daysInMonth_le (year : Int) (month : Nat) : daysInMonth year month ≤ 31 := by
  unfold daysInMonth
  split
  · split <;> decide
  all_goals decide

/-- A text of parts that exist is read as the moment they make up. -/
theorem parseRfc3339_partChars {date : Date} {hour minute second nanos : Nat} {offset : Int}
    (valid : date.valid = true) (year : 0 ≤ date.year ∧ date.year ≤ 9999) (hours : hour ≤ 23)
    (minutes : minute ≤ 59) (seconds : second ≤ 59) (bounded : nanos < 10 ^ 9)
    (short : offset.natAbs < 86400) (whole : offset % 60 = 0) :
    parseRfc3339 (String.ofList (partChars date hour minute second nanos offset)) =
      .ok ⟨date.toDays * Moment.nanosPerDay +
        (((hour * 3600 + minute * 60 + second : Nat) : Int) * Moment.nanosPerSecond + nanos), offset⟩ := by
  have parts := valid
  simp only [Date.valid, Bool.and_eq_true, decide_eq_true_eq] at parts
  obtain ⟨⟨⟨firstMonth, lastMonth⟩, firstDay⟩, lastDay⟩ := parts
  have dayFits := Nat.le_trans lastDay (daysInMonth_le _ _)
  obtain ⟨sign, tail, offsetWritten, noDigit, noPoint⟩ := offsetChars_head offset
  have yearRead := readDigits_padded "year" 4 date.year.toNat (by decide) (by omega)
  have monthRead := readDigits_padded "month" 2 date.month (by decide) (by omega)
  have dayRead := readDigits_padded "day" 2 date.day (by decide) (by omega)
  have hourRead := readDigits_padded "hour" 2 hour (by decide) (by omega)
  have minuteRead := readDigits_padded "minute" 2 minute (by decide) (by omega)
  have secondRead := readDigits_padded "second" 2 second (by decide) (by omega)
  have nanosRead : readSubsecond (fraction nanos ++ offsetChars offset) = .ok (nanos, offsetChars offset) :=
    readSubsecond_fraction bounded (by simp [DigitsEnd, offsetWritten, noDigit])
      (by simp [offsetWritten, noPoint])
  have offsetRead := readOffset_offsetChars short whole
  have yearKept : ((date.year.toNat : Nat) : Int) = date.year := Int.toNat_of_nonneg year.1
  have separator : ∀ rest, dropSeparator ('T' :: rest) = .ok rest := fun _ => rfl
  simp only [parseRfc3339, partChars, String.toList_ofList, List.append_assoc, List.cons_append, bind,
    Except.bind, yearRead, monthRead, dayRead, separator, hourRead, minuteRead, secondRead, nanosRead,
    offsetRead, readLiteral, if_true, yearKept]
  -- Nothing is left over, every part is in range, and there is no leap second.
  rw [if_neg (by simp), if_neg (by omega), if_neg (by simpa using valid), if_neg (by omega),
    if_neg (by omega), if_neg (by omega), if_neg (by omega), if_neg (by omega), if_neg (by omega)]
  rfl

/-- A moment is read back from its text. -/
theorem parseRfc3339_rfc3339 {moment : Moment} {text : String} (written : rfc3339 moment = some text) :
    parseRfc3339 text = .ok moment := by
  unfold rfc3339 at written
  dsimp only at written
  split at written
  · cases written
  next writable =>
    simp only [not_or, Int.not_lt, Nat.not_le, ne_eq, Decidable.not_not] at writable
    obtain ⟨yearLow, yearHigh, short, whole⟩ := writable
    have withinDay : moment.nanosOfDay < 86400000000000 := by
      simp only [Moment.nanosOfDay, Moment.nanosPerDay]
      omega
    have hours : moment.nanosOfDay / 1000000000 / 3600 ≤ 23 := by omega
    have minutes : moment.nanosOfDay / 1000000000 / 60 % 60 ≤ 59 := by omega
    have seconds : moment.nanosOfDay / 1000000000 % 60 ≤ 59 := by omega
    have nanos : moment.nanosOfDay % 1000000000 < 10 ^ 9 := by omega
    have read := parseRfc3339_partChars (Date.valid_ofDays (moment.wall / Moment.nanosPerDay))
      ⟨yearLow, yearHigh⟩ hours minutes seconds nanos short whole
    have reading : (Date.ofDays (moment.wall / Moment.nanosPerDay)).toDays * Moment.nanosPerDay +
        (((moment.nanosOfDay / 1000000000 / 3600 * 3600 + moment.nanosOfDay / 1000000000 / 60 % 60 * 60 +
          moment.nanosOfDay / 1000000000 % 60 : Nat) : Int) * Moment.nanosPerSecond +
            ((moment.nanosOfDay % 1000000000 : Nat) : Int)) = moment.wall := by
      rw [Date.toDays_ofDays]
      simp only [Moment.nanosOfDay, Moment.nanosPerDay, Moment.nanosPerSecond]
      omega
    rw [reading] at read
    exact Option.some.inj written ▸ read

/-- A moment in one of these years has a text, if its offset has one. -/
theorem rfc3339_isSome {moment : Moment} (low : 0 ≤ moment.wall / Moment.nanosPerDay + epochShift)
    (high : moment.wall / Moment.nanosPerDay + epochShift < 24 * 146097)
    (short : moment.offset.natAbs < 86400) (whole : moment.offset % 60 = 0) :
    (rfc3339 moment).isSome = true := by
  obtain ⟨yearLow, yearHigh⟩ := Date.year_ofDays low high
  rw [rfc3339]
  dsimp only
  rw [if_neg]
  · rfl
  · simp only [not_or, Int.not_lt, Nat.not_le, ne_eq, Decidable.not_not]
    exact ⟨yearLow, yearHigh, short, whole⟩

end HostPruning.Time
