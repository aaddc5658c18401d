import HostPruning.Json.Basic
import HostPruning.Width

/-!
# Reading JSON text

`Json.read` accepts exactly one value with optional white space around it. A
`Dialect` fixes what differs between the two places that read JSON: records refuse
deep nesting, escapes of lone surrogates and numbers beyond the largest float, while
the database's own JSON functions accept more. An object keeps repeated names here;
`Json.dedup` settles them.

A number that fits 64 bits is an integer. Any other number goes through a 64-bit
significand: digits are taken in while it does not overflow, the rest only move the
power of ten, and one multiplication or division by a power of ten follows. `-0` is
the float.
-/

namespace HostPruning.Json

/-- What a reader puts up with. -/
structure Dialect where
  /-- How deep arrays and objects may nest. -/
  depth : Nat
  /-- Whether lone surrogates and numbers beyond the largest float are refused. -/
  strict : Bool

/-- The dialect of records: hosts, events and facts. -/
def Dialect.records : Dialect := ⟨127, true⟩

/-- The dialect the database checks stored facts with. -/
def Dialect.stored : Dialect := ⟨1000, false⟩

/-- Skip the four JSON white space characters. -/
def skipBlank : List Char → List Char
  | [] => []
  | char :: rest =>
      if char = ' ' ∨ char = '\n' ∨ char = '\t' ∨ char = '\r' then skipBlank rest else char :: rest

/-- The value of a decimal digit. -/
def decimalDigit? (char : Char) : Option Nat :=
  if char.isDigit then some (char.toNat - 48) else none

/-- The value of a hexadecimal digit in either case. -/
def hexDigit? (char : Char) : Option Nat :=
  if char.isDigit then some (char.toNat - 48)
  else if 'a' ≤ char ∧ char ≤ 'f' then some (char.toNat - 87)
  else if 'A' ≤ char ∧ char ≤ 'F' then some (char.toNat - 55)
  else none

/-- The longest run of decimal digits in front, and what follows it. -/
def digitRun : List Char → List Nat × List Char
  | [] => ([], [])
  | char :: rest =>
      match decimalDigit? char with
      | some digit =>
          let (digits, after) := digitRun rest
          (digit :: digits, after)
      | none => ([], char :: rest)

/-- The parts of a number as written. -/
structure NumberParts where
  negative : Bool
  whole : List Nat
  fraction : List Nat
  /-- Sign and digits of the exponent, when one is written. -/
  exponent : Option (Bool × List Nat)

/-- Read the parts of a number: no leading zero, and at least one digit wherever digits
are expected. -/
def readNumberParts (input : List Char) : Option (NumberParts × List Char) := do
  let (negative, input) := match input with
    | '-' :: rest => (true, rest)
    | other => (false, other)
  let (whole, input) := digitRun input
  if whole.isEmpty || (whole.head? == some 0 && whole.length ≠ 1) then none
  let (fraction, input) ← match input with
    | '.' :: rest =>
        let (digits, after) := digitRun rest
        if digits.isEmpty then none else some (digits, after)
    | other => some ([], other)
  let (exponent, input) ← match input with
    | char :: rest =>
        if char = 'e' ∨ char = 'E' then
          let (down, rest) := match rest with
            | '-' :: after => (true, after)
            | '+' :: after => (false, after)
            | other => (false, other)
          let (digits, after) := digitRun rest
          if digits.isEmpty then none else some (some (down, digits), after)
        else some (none, char :: rest)
    | [] => some (none, [])
  some (⟨negative, whole, fraction, exponent⟩, input)

/-- The bound of a 64-bit significand. -/
def significandBound : Nat := Width.count 64

/-- Take digits into a significand while it stays below the bound; gives the significand
and the digits left over. -/
def accumulate (significand : Nat) : List Nat → Nat × List Nat
  | [] => (significand, [])
  | digit :: rest =>
      if significandBound ≤ significand * 10 + digit then (significand, digit :: rest)
      else accumulate (significand * 10 + digit) rest

/-- `significand * 10 ^ exponent` in binary64 arithmetic; none beyond the largest value.
Exponents beyond the table of powers are divided off in steps. -/
def scaled : Nat → Binary64 → Int → Option Binary64
  | 0, value, _ => some value
  | budget + 1, value, exponent =>
      if exponent.natAbs ≤ 308 then
        (Binary64.ofNat (Nat.pow 10 exponent.natAbs)).bind fun power =>
          if 0 ≤ exponent then value.mul power else value.div power
      else if value.significand = 0 then some value
      else if 0 ≤ exponent then none
      else
        (Binary64.ofNat (Nat.pow 10 308)).bind fun power =>
          (value.div power).bind fun smaller => scaled budget smaller (exponent + 308)

/-- The greatest exponent that is read as written. -/
def exponentBound : Nat := Width.half 32 - 1

/-- The value of a number with a fraction, an exponent or too many digits. -/
def NumberParts.real? (parts : NumberParts) : Option Binary64 := do
  let (significand, dropped) := accumulate 0 parts.whole
  let (significand, unread) := accumulate significand parts.fraction
  let taken : Int := (parts.fraction.length : Int) - unread.length
  let base : Int := dropped.length - taken
  let value ← Binary64.ofNat significand
  let result ← match parts.exponent with
    | none => scaled 8 value base
    | some (down, digits) =>
        let written := digits.foldl (fun total digit => total * 10 + digit) 0
        if exponentBound < written then
          if significand ≠ 0 ∧ ¬ down then none else some Binary64.zero
        else scaled 8 value (if down then base - written else base + written)
  some (result.withSign parts.negative)

/-- The value of a number: an integer where 64 bits hold it. -/
def NumberParts.number? (parts : NumberParts) : Option Number :=
  let whole := parts.whole.foldl (fun total digit => total * 10 + digit) 0
  if parts.fraction.isEmpty ∧ parts.exponent.isNone ∧ whole < significandBound then
    if ¬ parts.negative then some (.integer whole)
    else if 0 < whole ∧ whole ≤ Width.half 64 then some (.integer (-(whole : Int)))
    else (Binary64.ofNat whole).map fun value => .real (value.withSign true)
  else parts.real?.map .real

/-- Read a number. Beyond the largest float a strict dialect refuses; the other keeps the
largest float. -/
def readNumber (dialect : Dialect) (input : List Char) : Option (Number × List Char) := do
  let (parts, rest) ← readNumberParts input
  match parts.number? with
  | some value => some (value, rest)
  | none =>
      if dialect.strict then none
      else some (.real ⟨parts.negative, Nat.pow 2 53 - 1, 971⟩, rest)

/-- A piece of a string as written: a character, or a UTF-16 unit given by an escape. -/
inductive Piece where
  | plain (char : Char)
  | unit (code : Nat)

/-- The character of a one-letter escape. -/
def shortEscape? : Char → Option Char
  | '"' => some '"'
  | '\\' => some '\\'
  | '/' => some '/'
  | 'b' => some '\x08'
  | 'f' => some '\x0c'
  | 'n' => some '\n'
  | 'r' => some '\r'
  | 't' => some '\t'
  | _ => none

/-- Read the pieces of a string up to its closing quote. Raw control characters are
refused. -/
def readPieces : List Char → Option (List Piece × List Char)
  | [] => none
  | '"' :: rest => some ([], rest)
  | '\\' :: 'u' :: a :: b :: c :: d :: rest => do
      let first ← hexDigit? a
      let second ← hexDigit? b
      let third ← hexDigit? c
      let fourth ← hexDigit? d
      let (pieces, after) ← readPieces rest
      some (.unit (first * 4096 + second * 256 + third * 16 + fourth) :: pieces, after)
  | '\\' :: char :: rest => do
      let plain ← shortEscape? char
      let (pieces, after) ← readPieces rest
      some (.plain plain :: pieces, after)
  | char :: rest => do
      if char.toNat < 0x20 ∨ char = '\\' then none
      let (pieces, after) ← readPieces rest
      some (.plain char :: pieces, after)

/-- Whether a UTF-16 unit starts a surrogate pair. -/
def leadingSurrogate (code : Nat) : Bool := 0xD800 ≤ code && code < 0xDC00

/-- Whether a UTF-16 unit ends a surrogate pair. -/
def trailingSurrogate (code : Nat) : Bool := 0xDC00 ≤ code && code < 0xE000

/-- The character that stands in for an unreadable one. -/
def replacement : Char := Char.ofNat 0xFFFD

/-- Join the pieces of a string; surrogates must come in pairs unless the dialect
replaces lone ones. -/
def joinPieces (dialect : Dialect) : List Piece → Option (List Char)
  | [] => some []
  | .plain char :: rest => (joinPieces dialect rest).map (char :: ·)
  | .unit first :: .unit second :: rest =>
      if leadingSurrogate first && trailingSurrogate second then
        (joinPieces dialect rest).map
          (Char.ofNat (0x10000 + (first - 0xD800) * 1024 + (second - 0xDC00)) :: ·)
      else if leadingSurrogate first || trailingSurrogate first then
        if dialect.strict then none
        else (joinPieces dialect (.unit second :: rest)).map (replacement :: ·)
      else (joinPieces dialect (.unit second :: rest)).map (Char.ofNat first :: ·)
  | .unit code :: rest =>
      if leadingSurrogate code || trailingSurrogate code then
        if dialect.strict then none else (joinPieces dialect rest).map (replacement :: ·)
      else (joinPieces dialect rest).map (Char.ofNat code :: ·)

/-- Read a string whose opening quote has been taken. -/
def readString (dialect : Dialect) (input : List Char) : Option (String × List Char) := do
  let (pieces, rest) ← readPieces input
  let chars ← joinPieces dialect pieces
  some (String.ofList chars, rest)

mutual

/-- Read one value. The budget bounds the number of steps; `depth` is the number of
levels that may still be opened. -/
def readValue (dialect : Dialect) : Nat → Nat → List Char → Option (Json × List Char)
  | 0, _, _ => none
  | budget + 1, depth, input =>
      match skipBlank input with
      | '"' :: rest => (readString dialect rest).map fun (text, after) => (string text, after)
      | '[' :: rest =>
          match depth with
          | 0 => none
          | depth + 1 =>
              match skipBlank rest with
              | ']' :: after => some (array [], after)
              | inside => (readItems dialect budget depth inside).map fun (items, after) => (array items, after)
      | '{' :: rest =>
          match depth with
          | 0 => none
          | depth + 1 =>
              match skipBlank rest with
              | '}' :: after => some (object [], after)
              | inside =>
                  (readMembers dialect budget depth inside).map fun (members, after) => (object members, after)
      | 'n' :: 'u' :: 'l' :: 'l' :: rest => some (null, rest)
      | 't' :: 'r' :: 'u' :: 'e' :: rest => some (bool true, rest)
      | 'f' :: 'a' :: 'l' :: 's' :: 'e' :: rest => some (bool false, rest)
      | other => (readNumber dialect other).map fun (value, after) => (number value, after)

/-- Read the items of an array up to its closing bracket. -/
def readItems (dialect : Dialect) : Nat → Nat → List Char → Option (List Json × List Char)
  | 0, _, _ => none
  | budget + 1, depth, input =>
      match readValue dialect budget depth input with
      | none => none
      | some (item, rest) =>
          match skipBlank rest with
          | ']' :: after => some ([item], after)
          | ',' :: more => (readItems dialect budget depth more).map fun (items, after) => (item :: items, after)
          | _ => none

/-- Read the members of an object up to its closing brace. -/
def readMembers (dialect : Dialect) : Nat → Nat → List Char → Option (List (String × Json) × List Char)
  | 0, _, _ => none
  | budget + 1, depth, input =>
      match skipBlank input with
      | '"' :: rest =>
          match readString dialect rest with
          | none => none
          | some (name, rest) =>
              match skipBlank rest with
              | ':' :: rest =>
                  match readValue dialect budget depth rest with
                  | none => none
                  | some (value, rest) =>
                      match skipBlank rest with
                      | '}' :: after => some ([(name, value)], after)
                      | ',' :: more =>
                          (readMembers dialect budget depth more).map fun (members, after) =>
                            ((name, value) :: members, after)
                      | _ => none
              | _ => none
      | _ => none

end

/-- Read a text that holds exactly one value; repeated names are kept. -/
def readAs (dialect : Dialect) (text : String) : Option Json :=
  let input := text.toList
  match readValue dialect (2 * input.length + 2) dialect.depth input with
  | some (value, rest) => if (skipBlank rest).isEmpty then some value else none
  | none => none

/-- Read a record's text; repeated names are kept. -/
def readRepeated (text : String) : Option Json := readAs .records text

/-- Read a record's text; of a repeated name the first place and the last value count. -/
def read (text : String) : Option Json := (readRepeated text).map dedup

end HostPruning.Json
