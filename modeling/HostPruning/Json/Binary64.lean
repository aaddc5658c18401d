/-!
# Binary floating point numbers

Facts may carry numbers that are no 64-bit integers. They are held as finite
IEEE 754 binary64 values: a significand of at most 53 bits and a power of two.
All arithmetic is exact arithmetic on naturals followed by one rounding, to the
nearest value with ties to the even significand.

`Binary64.shortest` chooses the fewest decimal digits that still name the value:
for one digit, two digits and so on it looks at the value's two neighbours on the
decimal grid, and the first grid with a neighbour inside the value's rounding
interval wins.
-/

namespace HostPruning.Json

/-- The finite value `±significand * 2 ^ exponent`. -/
structure Binary64 where
  negative : Bool
  significand : Nat
  exponent : Int
deriving DecidableEq

namespace Binary64

/-- Positive zero. -/
def zero : Binary64 := ⟨false, 0, -1074⟩

/-- The same magnitude with a chosen sign. -/
def withSign (negative : Bool) (value : Binary64) : Binary64 := { value with negative := negative }

/-- A nonnegative quotient, kept as numerator and denominator. -/
structure Quotient where
  top : Nat
  bottom : Nat

/-- The magnitude of a value as an exact quotient. -/
def magnitude (value : Binary64) : Quotient :=
  if 0 ≤ value.exponent then ⟨value.significand * Nat.pow 2 value.exponent.toNat, 1⟩
  else ⟨value.significand, Nat.pow 2 (-value.exponent).toNat⟩

/-- `top / (bottom * 2 ^ exponent)` rounded to the nearest integer, a half to the even one. -/
def roundScaled (quotient : Quotient) (exponent : Int) : Nat :=
  let top := if exponent < 0 then quotient.top * Nat.pow 2 (-exponent).toNat else quotient.top
  let bottom := if exponent < 0 then quotient.bottom else quotient.bottom * Nat.pow 2 exponent.toNat
  let whole := top / bottom
  let rest := top % bottom
  if 2 * rest < bottom then whole
  else if bottom < 2 * rest then whole + 1
  else if whole % 2 = 0 then whole else whole + 1

/-- The exponent that gives a positive quotient 53 significant bits, or the least one. -/
def scale (quotient : Quotient) : Int :=
  let guess : Int := (Nat.log2 quotient.top : Int) - (Nat.log2 quotient.bottom : Int) - 52
  let below : Bool :=
    if 0 ≤ guess + 52 then quotient.top < quotient.bottom * Nat.pow 2 (guess + 52).toNat
    else quotient.top * Nat.pow 2 (-(guess + 52)).toNat < quotient.bottom
  max (if below then guess - 1 else guess) (-1074)

/-- The nearest binary64 value to a quotient; none when it lies beyond the largest one. -/
def ofQuotient (quotient : Quotient) : Option Binary64 :=
  if quotient.top = 0 then some zero
  else
    let exponent := scale quotient
    let significand := roundScaled quotient exponent
    let carried := significand = Nat.pow 2 53
    let exponent := if carried then exponent + 1 else exponent
    let significand := if carried then Nat.pow 2 52 else significand
    if 971 < exponent then none else some ⟨false, significand, exponent⟩

/-- The nearest binary64 value to a natural number. -/
def ofNat (number : Nat) : Option Binary64 := ofQuotient ⟨number, 1⟩

/-- The product of two magnitudes, rounded. -/
def mul (left right : Binary64) : Option Binary64 :=
  ofQuotient ⟨left.magnitude.top * right.magnitude.top, left.magnitude.bottom * right.magnitude.bottom⟩

/-- The quotient of two magnitudes, rounded; the divisor is not zero. -/
def div (left right : Binary64) : Option Binary64 :=
  ofQuotient ⟨left.magnitude.top * right.magnitude.bottom, left.magnitude.bottom * right.magnitude.top⟩

/-- Decimal digits with the power of ten of the last one. -/
structure Decimal where
  digits : Nat
  exponent : Int

/-- The number of decimal digits of a natural number. -/
def digitCount (number : Nat) : Nat := (Nat.toDigits 10 number).length

/-- The rounding interval of a positive value, as quotients over one denominator. -/
structure Interval where
  low : Nat
  value : Nat
  high : Nat
  bottom : Nat
  closed : Bool

/-- The numbers that round to a positive value. The interval is closed when the
significand is even, and narrower below a power of two. -/
def interval (value : Binary64) : Interval :=
  let significand := value.significand
  let gap := if significand = Nat.pow 2 52 ∧ -1074 < value.exponent then 1 else 2
  let exponent := value.exponent - 2
  let up := if 0 ≤ exponent then Nat.pow 2 exponent.toNat else 1
  let bottom := if 0 ≤ exponent then 1 else Nat.pow 2 (-exponent).toNat
  { low := (4 * significand - gap) * up
    value := 4 * significand * up
    high := (4 * significand + 2) * up
    bottom := bottom
    closed := significand % 2 = 0 }

/-- Whether `grid * 10 ^ power` lies in an interval. -/
def Interval.holds (range : Interval) (grid : Nat) (power : Int) : Bool :=
  let point := if 0 ≤ power then grid * Nat.pow 10 power.toNat * range.bottom else grid * range.bottom
  let unit := if 0 ≤ power then 1 else Nat.pow 10 (-power).toNat
  if range.closed then range.low * unit ≤ point && point ≤ range.high * unit
  else range.low * unit < point && point < range.high * unit

/-- The best decimal with a given power of ten for its last digit: of the two
neighbours of the value that lie in its interval the nearer one, of two equally near
ones the even one. -/
def nearest (range : Interval) (power : Int) : Option Decimal :=
  let top := if 0 ≤ power then range.value else range.value * Nat.pow 10 (-power).toNat
  let bottom := if 0 ≤ power then range.bottom * Nat.pow 10 power.toNat else range.bottom
  let floor := top / bottom
  let rest := top % bottom
  let lowFits := range.holds floor power
  let highFits := range.holds (floor + 1) power
  let lower : Decimal := ⟨floor, power⟩
  let upper : Decimal := ⟨floor + 1, power⟩
  if lowFits && highFits then
    if 2 * rest < bottom then some lower
    else if bottom < 2 * rest then some upper
    else if floor % 2 = 0 then some lower else some upper
  else if lowFits then some lower
  else if highFits then some upper
  else none

/-- The power of ten of the leading digit of a positive quotient. -/
def leadingPower (quotient : Quotient) : Int :=
  let guess : Int := (digitCount quotient.top : Int) - (digitCount quotient.bottom : Int)
  let below : Bool :=
    if 0 ≤ guess then quotient.top < quotient.bottom * Nat.pow 10 guess.toNat
    else quotient.top * Nat.pow 10 (-guess).toNat < quotient.bottom
  if below then guess - 1 else guess

/-- Try grids of one more digit each, at most `budget` of them. -/
def searchGrids (range : Interval) (leading : Int) : Nat → Int → Option Decimal
  | 0, _ => none
  | budget + 1, places =>
      match nearest range (leading - places) with
      | some found => if found.digits = 0 then searchGrids range leading budget (places + 1) else some found
      | none => searchGrids range leading budget (places + 1)

/-- Move trailing zeros of the digits into the exponent. -/
def stripZeros : Nat → Decimal → Decimal
  | 0, decimal => decimal
  | budget + 1, decimal =>
      if decimal.digits % 10 = 0 ∧ decimal.digits ≠ 0 then
        stripZeros budget ⟨decimal.digits / 10, decimal.exponent + 1⟩
      else decimal

/-- The shortest decimal that names a positive value; of the shortest the nearest.
Seventeen digits always suffice. -/
def shortest (value : Binary64) : Decimal :=
  let found := searchGrids value.interval (leadingPower value.magnitude) 18 0
  stripZeros 20 (found.getD ⟨value.significand, 0⟩)

/-- The decimal point positions that are written positionally. A position from -4 to
16 is; every other value is written in scientific form. -/
structure PositionalRange where
  least : Int
  greatest : Int

/-- Positional from four zeros after the point to sixteen digits before it. -/
def positional : PositionalRange := ⟨-4, 16⟩

/-- The text of a value. A whole value written positionally ends in `.0`. -/
def chars (value : Binary64) : List Char :=
  let sign := if value.negative then ['-'] else []
  if value.significand = 0 then sign ++ ['0', '.', '0']
  else
    let decimal := value.shortest
    let digits := Nat.toDigits 10 decimal.digits
    let point : Int := digits.length + decimal.exponent
    sign ++
      if 0 ≤ decimal.exponent ∧ point ≤ positional.greatest then
        digits ++ List.replicate decimal.exponent.toNat '0' ++ ['.', '0']
      else if 0 < point ∧ point ≤ positional.greatest then
        digits.take point.toNat ++ '.' :: digits.drop point.toNat
      else if positional.least ≤ point ∧ point ≤ 0 then
        '0' :: '.' :: List.replicate (-point).toNat '0' ++ digits
      else
        let power := (toString (point - 1)).toList
        match digits with
        | [only] => only :: 'e' :: power
        | first :: rest => first :: '.' :: rest ++ 'e' :: power
        | [] => []

end Binary64

end HostPruning.Json
