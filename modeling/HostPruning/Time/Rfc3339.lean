import HostPruning.Time.Moment

/-!
# Moments as RFC 3339 text

Writing gives `YYYY-MM-DDTHH:MM:SS`, a fraction without trailing zeros where there is
one, and `Z` or the offset. Reading accepts any single-byte separator between date and
time, any number of fraction digits (those after the ninth are dropped) and a leap
second where one can occur, which it takes as the last nanosecond before it.
-/

namespace HostPruning.Time

/-- Why a text is not a moment. -/
inductive TextDefect where
  /-- A part could not be read. -/
  | unreadable (part : String)
  /-- A fixed character is missing. -/
  | literal
  /-- Something follows the moment. -/
  | trailing
  /-- A part was read and does not exist in the calendar. -/
  | outOfRange (part : String)
deriving DecidableEq

/-- The wording of a defect. -/
def TextDefect.message : TextDefect → String
  | .unreadable part => "the '" ++ part ++ "' component could not be parsed"
  | .literal => "a character literal was not valid"
  | .trailing => "unexpected trailing characters; the end of input was expected"
  | .outOfRange part => part ++ " was not in range"

/-- The wordings of a defect from the outermost to the innermost cause. -/
def TextDefect.causes (defect : TextDefect) : List String :=
  match defect with
  | .outOfRange _ => [defect.message, defect.message, defect.message]
  | _ => [defect.message, defect.message]

/-- A number with leading zeros up to a width. -/
def padded (width number : Nat) : List Char :=
  let digits := Nat.toDigits 10 number
  List.replicate (width - digits.length) '0' ++ digits

/-- The fraction of a second: nothing for a whole one, else a point and the nanoseconds
without trailing zeros. -/
def fraction (nanos : Nat) : List Char :=
  if nanos = 0 then []
  else '.' :: ((padded 9 nanos).reverse.dropWhile (· = '0')).reverse

/-- The offset: `Z` for none, else sign, hours and minutes. -/
def offsetChars (offset : Int) : List Char :=
  if offset = 0 then ['Z']
  else
    let minutes := offset.natAbs / 60
    (if offset < 0 then '-' else '+') :: padded 2 (minutes / 60) ++ ':' :: padded 2 (minutes % 60)

/-- The text of a moment; a year outside 0 to 9999 has none, nor has an offset of a day or
more or of broken minutes. -/
def rfc3339 (moment : Moment) : Option String :=
  let date := moment.date
  if date.year < 0 ∨ 9999 < date.year ∨ 86400 ≤ moment.offset.natAbs ∨ moment.offset % 60 ≠ 0 then none
  else
    let seconds := moment.nanosOfDay / 1000000000
    some <| String.ofList <|
      padded 4 date.year.toNat ++ '-' :: padded 2 date.month ++ '-' :: padded 2 date.day ++
        'T' :: padded 2 (seconds / 3600) ++ ':' :: padded 2 (seconds / 60 % 60) ++
        ':' :: padded 2 (seconds % 60) ++ fraction (moment.nanosOfDay % 1000000000) ++
        offsetChars moment.offset

/-- A result with the characters not yet read. -/
abbrev Reading (α : Type) := Except TextDefect (α × List Char)

/-- Read exactly `count` decimal digits. -/
def readDigits (part : String) : Nat → Nat → List Char → Reading Nat
  | 0, value, input => .ok (value, input)
  | count + 1, value, char :: rest =>
      if char.isDigit then readDigits part count (value * 10 + (char.toNat - 48)) rest
      else .error (.unreadable part)
  | _ + 1, _, [] => .error (.unreadable part)

/-- Read one fixed character. -/
def readLiteral (expected : Char) : List Char → Except TextDefect (List Char)
  | char :: rest => if char = expected then .ok rest else .error .literal
  | [] => .error .literal

/-- Read the digits of a fraction: each counts for the unit given, and a tenth of it is left
for the next. -/
def readFraction (unit value : Nat) : List Char → Nat × List Char
  | [] => (value, [])
  | char :: rest =>
      if char.isDigit then readFraction (unit / 10) (value + (char.toNat - 48) * unit) rest
      else (value, char :: rest)

/-- Read an optional fraction of a second, in nanoseconds. -/
def readSubsecond : List Char → Reading Nat
  | '.' :: char :: rest =>
      if char.isDigit then .ok (readFraction 100000000 0 (char :: rest))
      else .error (.unreadable "subsecond")
  | ['.'] => .error (.unreadable "subsecond")
  | input => .ok (0, input)

/-- Read the offset, in seconds. -/
def readOffset (input : List Char) : Except TextDefect (Int × List Char) :=
  match input with
  | [] => .error (.unreadable "offset hour")
  | char :: rest =>
      if char = 'Z' ∨ char = 'z' then .ok (0, rest)
      else if char = '+' ∨ char = '-' then do
        let (hours, rest) ← readDigits "offset hour" 2 0 rest
        if 23 < hours then throw (.unreadable "offset hour")
        let rest ← readLiteral ':' rest
        let (minutes, rest) ← readDigits "offset minute" 2 0 rest
        if 59 < minutes then throw (.outOfRange "offset minute")
        let seconds : Int := hours * 3600 + minutes * 60
        return (if char = '-' then -seconds else seconds, rest)
      else .error (.unreadable "offset hour")

/-- Drop the separator between date and time, one byte. -/
def dropSeparator : List Char → Except TextDefect (List Char)
  | [] => .error (.unreadable "separator")
  | char :: rest => if char.toNat < 128 then .ok rest else .error (.unreadable "hour")

/-- Whether the nanosecond before a leap second is that moment: 23:59:59.999999999 UTC on the
last day of a month. -/
def beforeLeapSecond (moment : Moment) : Bool :=
  let utc := Moment.ofUnixNanos moment.unixNanos
  let next := Date.ofDays (utc.wall / Moment.nanosPerDay + 1)
  Moment.representable utc.wall && utc.nanosOfDay = 86399999999999 && next.day = 1

/-- Read a moment. -/
def parseRfc3339 (text : String) : Except TextDefect Moment := do
  let (year, input) ← readDigits "year" 4 0 text.toList
  let input ← readLiteral '-' input
  let (month, input) ← readDigits "month" 2 0 input
  let input ← readLiteral '-' input
  let (day, input) ← readDigits "day" 2 0 input
  let input ← dropSeparator input
  let (hour, input) ← readDigits "hour" 2 0 input
  let input ← readLiteral ':' input
  let (minute, input) ← readDigits "minute" 2 0 input
  let input ← readLiteral ':' input
  let (second, input) ← readDigits "second" 2 0 input
  let (nanos, input) ← readSubsecond input
  let (offset, input) ← readOffset input
  if ¬ input.isEmpty then throw .trailing
  let leap := second = 60
  let date : Date := ⟨year, month, day⟩
  if month < 1 ∨ 12 < month then throw (.outOfRange "month")
  if ¬ date.valid then throw (.outOfRange "day")
  if 23 < hour then throw (.outOfRange "hour")
  if 59 < minute then throw (.outOfRange "minute")
  if 60 < second then throw (.outOfRange "second")
  let second := if leap then 59 else second
  let nanos := if leap then 999999999 else nanos
  let nanosOfDay : Int := (hour * 3600 + minute * 60 + second : Nat) * Moment.nanosPerSecond + nanos
  let moment : Moment := ⟨date.toDays * Moment.nanosPerDay + nanosOfDay, offset⟩
  if leap ∧ ¬ beforeLeapSecond moment then throw (.outOfRange "second")
  return moment

/-- Read a moment, without the reason of a failure. -/
def moment? (text : String) : Option Moment := (parseRfc3339 text).toOption

end HostPruning.Time
