import HostPruning.Width

/-!
# Words with a meaning

A plain scalar may be a word for nothing, a truth value, an integer or a decimal number.
Integers are decimal, or hexadecimal, octal or binary behind `0x`, `0o` and `0b`; a decimal
one with a leading zero is no integer. A number too large for binary64 is a text.
-/

namespace HostPruning.Yaml

namespace Literal

/-- Whether a word means that there is nothing. -/
def isNull (word : String) : Bool := word = "null" || word = "Null" || word = "NULL" || word = "~"

/-- The truth value of a word. -/
def truth? (word : String) : Option Bool :=
  if word = "true" ∨ word = "True" ∨ word = "TRUE" then some true
  else if word = "false" ∨ word = "False" ∨ word = "FALSE" then some false
  else none

/-- The value of a digit, in either case. -/
def digit? (char : Char) : Option Nat :=
  if char.isDigit then some (char.toNat - 48)
  else if 'a' ≤ char ∧ char ≤ 'z' then some (char.toNat - 87)
  else if 'A' ≤ char ∧ char ≤ 'Z' then some (char.toNat - 55)
  else none

/-- Take one more digit into a number. -/
def takeDigit (base : Nat) (total : Option Nat) (char : Char) : Option Nat :=
  match total, digit? char with
  | some total, some digit => if digit < base then some (total * base + digit) else none
  | _, _ => none

/-- The number that digits of a base spell; at least one is needed. -/
def natural? (base : Nat) (chars : List Char) : Option Nat :=
  if chars.isEmpty then none else chars.foldl (takeDigit base) (some 0)

/-- The base a number announces, and the digits behind that. -/
def announced? : List Char → Option (Nat × List Char)
  | '0' :: 'x' :: digits => some (16, digits)
  | '0' :: 'o' :: digits => some (8, digits)
  | '0' :: 'b' :: digits => some (2, digits)
  | _ => none

/-- The size of an integer without a sign: in its announced base, or decimal without a leading
zero. -/
def magnitude? (chars : List Char) : Option Nat :=
  match announced? chars with
  | some (base, digits) => natural? base digits
  | none =>
      if chars.head? = some '0' ∧ 1 < chars.length then none else natural? 10 chars

/-- The characters behind a plus sign, if there is one. -/
def withoutPlus : List Char → List Char
  | '+' :: rest => rest
  | chars => chars

/-- The integer a word spells. -/
def integer? (word : String) : Option Int :=
  match word.toList with
  | '-' :: digits => (magnitude? digits).map fun size => -(size : Int)
  | chars => (magnitude? (withoutPlus chars)).map fun size => (size : Int)

/-- Whether a word spells an integer with a minus sign. -/
def isNegative (word : String) : Bool := word.toList.head? = some '-'

/-- The integer a word spells, if an unsigned type of some bits holds it. A minus sign is refused
even in front of zero. -/
def unsigned? (bits : Nat) (word : String) : Option Nat :=
  if isNegative word then none
  else (integer? word).bind fun value => if value < Width.count bits then some value.toNat else none

/-- The integer a word spells, if a signed type of some bits holds it. -/
def signed? (bits : Nat) (word : String) : Option Int :=
  (integer? word).bind fun value =>
    if Width.holdsSigned bits value then some value else none

/-- A decimal number: the digits before and behind the point, and the exponent. -/
structure Decimal where
  whole : List Char
  fraction : List Char
  exponent : Int

/-- The exponent behind a number: a mark, perhaps a sign, and digits. -/
def exponent? : List Char → Option Int
  | [] => some 0
  | mark :: rest =>
      if mark = 'e' ∨ mark = 'E' then
        match rest with
        | '-' :: digits => (natural? 10 digits).map fun size => -(size : Int)
        | '+' :: digits => (natural? 10 digits).map fun size => (size : Int)
        | digits => (natural? 10 digits).map fun size => (size : Int)
      else none

/-- The parts of a decimal number without a sign; a digit is needed on one side of the point. -/
def decimal? (chars : List Char) : Option Decimal := do
  let whole := chars.takeWhile Char.isDigit
  let behind := chars.dropWhile Char.isDigit
  let (fraction, behind) := match behind with
    | '.' :: rest => (rest.takeWhile Char.isDigit, rest.dropWhile Char.isDigit)
    | other => ([], other)
  if whole.isEmpty ∧ fraction.isEmpty then none
  return ⟨whole, fraction, ← exponent? behind⟩

/-- The least number that binary64 rounds to infinity: half a unit above the largest value. -/
def infinityBound : Nat := (Nat.pow 2 54 - 1) * Nat.pow 2 970

/-- Whether a decimal number is one of binary64 once rounded. Numbers with more than 400 places
before the point are too large, whatever the digits. -/
def Decimal.isFinite (number : Decimal) : Bool :=
  let digits := (number.whole ++ number.fraction).dropWhile (· = '0')
  let size := digits.foldl (fun total digit => total * 10 + (digit.toNat - 48)) 0
  let scale := number.exponent - number.fraction.length
  let places := scale + digits.length
  if size = 0 ∨ places < 300 then true
  else if 400 < places then false
  else if 0 ≤ scale then size * Nat.pow 10 scale.toNat < infinityBound
  else size < infinityBound * Nat.pow 10 scale.natAbs

/-- The words for infinities and for a value that is no number. -/
def specialWords : List String :=
  [".inf", ".Inf", ".INF", "+.inf", "+.Inf", "+.INF", "-.inf", "-.Inf", "-.INF", ".nan", ".NaN", ".NAN"]

/-- Whether a word spells a decimal number or is a special word. -/
def isReal (word : String) : Bool :=
  specialWords.contains word ||
    match decimal? (match word.toList with
      | '-' :: rest => rest
      | '+' :: rest => rest
      | chars => chars) with
    | some number => number.isFinite
    | none => false

end Literal

end HostPruning.Yaml
