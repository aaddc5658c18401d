import Mathlib.Data.List.Basic
import HostPruning.Json.Reader

/-!
# Numbers in JSON texts

The text of a number is read as it is alone wherever a value may stand: in front of a comma, a
closing bracket or the end (`readNumber_append`). Integers of 64 bits are read back from their
texts; that a float is read back is asked of the float (`Number.ReadsBack`), because it rests on
the arithmetic of reading, which is not always correctly rounded.
-/

namespace HostPruning.Json

/-- What may follow a value in a compact text. -/
def Follows (rest : List Char) : Prop := ∀ char ∈ rest.head?, char = ',' ∨ char = ']' ∨ char = '}'

/-- Text behind a result that is left to be read. -/
def thenRest {Read : Type} (rest : List Char) (found : Read × List Char) : Read × List Char :=
  (found.1, found.2 ++ rest)

/-- The sign of a number. -/
def signPart : List Char → Bool × List Char
  | '-' :: rest => (true, rest)
  | other => (false, other)

/-- The sign of an exponent. -/
def exponentSign : List Char → Bool × List Char
  | '-' :: after => (true, after)
  | '+' :: after => (false, after)
  | other => (false, other)

/-- The parts of a number whose fraction has been read. -/
def withExponent (negative : Bool) (whole fraction : List Nat) :
    List Char → Option (NumberParts × List Char)
  | char :: rest =>
      if char = 'e' ∨ char = 'E' then
        match exponentSign rest with
        | (down, rest) =>
            match digitRun rest with
            | (digits, after) =>
                if digits.isEmpty then none else some (⟨negative, whole, fraction, some (down, digits)⟩, after)
      else some (⟨negative, whole, fraction, none⟩, char :: rest)
  | [] => some (⟨negative, whole, fraction, none⟩, [])

/-- The parts of a number whose whole digits have been read. -/
def withFraction (negative : Bool) (whole : List Nat) : List Char → Option (NumberParts × List Char)
  | '.' :: rest =>
      match digitRun rest with
      | (digits, after) => if digits.isEmpty then none else withExponent negative whole digits after
  | other => withExponent negative whole [] other

/-- The parts of a number are read one after the other. -/
theorem readNumberParts_eq (input : List Char) :
    readNumberParts input =
      match digitRun (signPart input).2 with
      | (whole, rest) =>
          if whole.isEmpty || (whole.head? == some 0 && whole.length ≠ 1) then none
          else withFraction (signPart input).1 whole rest := by
  rfl

section Follows

variable {rest : List Char} (follows : Follows rest)
include follows

theorem digitRun_of_follows : digitRun rest = ([], rest) := by
  cases rest with
  | nil => rfl
  | cons char tail =>
      rcases follows char rfl with rfl | rfl | rfl <;> rfl

theorem signPart_of_follows : signPart rest = (false, rest) := by
  cases rest with
  | nil => rfl
  | cons char tail =>
      rcases follows char rfl with rfl | rfl | rfl <;> rfl

theorem exponentSign_of_follows : exponentSign rest = (false, rest) := by
  cases rest with
  | nil => rfl
  | cons char tail =>
      rcases follows char rfl with rfl | rfl | rfl <;> rfl

theorem digitRun_append (input : List Char) :
    digitRun (input ++ rest) = thenRest rest (digitRun input) := by
  induction input with
  | nil => rw [List.nil_append, digitRun_of_follows follows]; rfl
  | cons char tail inductionHypothesis =>
      rw [List.cons_append, digitRun, digitRun]
      cases decimalDigit? char with
      | none => rfl
      | some digit => rw [inductionHypothesis]; rfl

theorem signPart_append (input : List Char) :
    signPart (input ++ rest) = thenRest rest (signPart input) := by
  cases input with
  | nil => rw [List.nil_append, signPart_of_follows follows]; rfl
  | cons char tail =>
      by_cases minus : char = '-'
      · rw [minus]
        rfl
      · simp [signPart, minus, thenRest]

theorem exponentSign_append (input : List Char) :
    exponentSign (input ++ rest) = thenRest rest (exponentSign input) := by
  cases input with
  | nil => rw [List.nil_append, exponentSign_of_follows follows]; rfl
  | cons char tail =>
      by_cases minus : char = '-'
      · rw [minus]
        rfl
      · by_cases plus : char = '+'
        · rw [plus]
          rfl
        · simp [exponentSign, minus, plus, thenRest]

theorem withExponent_append (negative : Bool) (whole fraction : List Nat) (input : List Char) :
    withExponent negative whole fraction (input ++ rest) =
      (withExponent negative whole fraction input).map (thenRest rest) := by
  cases input with
  | nil =>
      cases rest with
      | nil => rfl
      | cons char tail =>
          rcases follows char rfl with rfl | rfl | rfl <;> rfl
  | cons char tail =>
      rw [List.cons_append, withExponent, withExponent]
      split
      · rw [exponentSign_append follows]
        dsimp only [thenRest]
        rw [digitRun_append follows]
        dsimp only [thenRest]
        rw [apply_ite (Option.map (thenRest rest))]
        rfl
      · rfl

theorem withFraction_append (negative : Bool) (whole : List Nat) (input : List Char) :
    withFraction negative whole (input ++ rest) =
      (withFraction negative whole input).map (thenRest rest) := by
  have alone : ∀ input : List Char, input.head? ≠ some '.' →
      withFraction negative whole input = withExponent negative whole [] input := by
    intro input noPoint
    unfold withFraction
    split
    · exact absurd rfl noPoint
    · rfl
  by_cases point : input.head? = some '.'
  · obtain ⟨tail, rfl⟩ := List.head?_eq_some_iff.1 point
    rw [List.cons_append, withFraction, withFraction, digitRun_append follows]
    dsimp only [thenRest]
    rw [apply_ite (Option.map (thenRest rest)), withExponent_append follows]
    rfl
  · have stillAlone : (input ++ rest).head? ≠ some '.' := by
      cases input with
      | nil =>
          intro starts
          rcases follows '.' starts with wrong | wrong | wrong <;> cases wrong
      | cons char tail => exact point
    rw [alone input point, alone _ stillAlone, withExponent_append follows]

/-- A number in front of other values is read as it is alone. -/
theorem readNumber_append (dialect : Dialect) (input : List Char) :
    readNumber dialect (input ++ rest) = (readNumber dialect input).map (thenRest rest) := by
  have parts : readNumberParts (input ++ rest) = (readNumberParts input).map (thenRest rest) := by
    rw [readNumberParts_eq, readNumberParts_eq, signPart_append follows]
    dsimp only [thenRest]
    rw [digitRun_append follows]
    dsimp only [thenRest]
    rw [apply_ite (Option.map (thenRest rest)), withFraction_append follows]
    rfl
  unfold readNumber
  rw [parts]
  cases readNumberParts input with
  | none => rfl
  | some found =>
      dsimp only [Option.map, bind, Option.bind, thenRest]
      cases found.1.number? with
      | some value => rfl
      | none => cases dialect.strict <;> rfl

end Follows

/-- Whether the text of a number is read as that number. -/
def Number.ReadsBack (value : Number) : Prop := readNumber .records value.chars = some (value, [])

instance (value : Number) : Decidable value.ReadsBack :=
  inferInstanceAs (Decidable (readNumber .records value.chars = some (value, [])))

/-- The values of the decimal digits of a number. -/
def decimals (number : Nat) : List Nat := (Nat.toDigits 10 number).map fun char => char.toNat - 48

theorem foldl_decimals (number : Nat) :
    (decimals number).foldl (fun total digit => total * 10 + digit) 0 = number := by
  have spelled : Nat.ofDigitChars 10 (Nat.toDigits 10 number) 0 = number := Nat.ofDigitChars_ten_toDigits
  have zero : '0'.toNat = 48 := rfl
  rw [Nat.ofDigitChars_eq_foldl, zero] at spelled
  rw [decimals, List.foldl_map]
  simpa only [Nat.mul_comm] using spelled

/-- Only zero is written with a leading zero. -/
theorem decimals_head {number : Nat} (positive : 0 < number) : (decimals number).head? ≠ some 0 := by
  induction number using Nat.strongRecOn with
  | ind number inductionHypothesis =>
      rcases Nat.lt_or_ge number 10 with small | large
      · have nonzero : ∀ digit < 10, 0 < digit → ([Nat.digitChar digit].map fun char =>
            char.toNat - 48).head? ≠ some 0 := by decide
        rw [decimals, Nat.toDigits_of_lt_base small]
        exact nonzero number small positive
      · have shorter := inductionHypothesis (number / 10) (by omega) (by omega)
        rw [decimals, Nat.toDigits_of_base_le (by decide) large, List.map_append,
          List.head?_append_of_ne_nil _ (by simp)]
        exact shorter

/-- A run of digits ends in front of anything that is not a digit. -/
theorem digitRun_decimal_append {digits rest : List Char} (decimal : ∀ char ∈ digits, char.isDigit = true)
    (ends : ∀ char ∈ rest.head?, char.isDigit = false) :
    digitRun (digits ++ rest) = (digits.map fun char => char.toNat - 48, rest) := by
  induction digits with
  | nil =>
      cases rest with
      | nil => rfl
      | cons char tail => simp [digitRun, decimalDigit?, ends char rfl]
  | cons char tail inductionHypothesis =>
      have first := decimal char List.mem_cons_self
      have later := inductionHypothesis fun other among => decimal other (List.mem_cons_of_mem _ among)
      simp only [List.cons_append, digitRun, decimalDigit?, first, if_true, later, List.map_cons]

theorem digitRun_decimal {digits : List Char} (decimal : ∀ char ∈ digits, char.isDigit = true) :
    digitRun digits = (digits.map fun char => char.toNat - 48, []) := by
  simpa using @digitRun_decimal_append digits [] decimal (by simp)

theorem signPart_decimal {digits : List Char} (decimal : ∀ char ∈ digits, char.isDigit = true) :
    signPart digits = (false, digits) := by
  unfold signPart
  split
  · exact absurd (decimal '-' List.mem_cons_self) (by decide)
  · rfl

/-- Whole digits behind an optional sign are read as such. -/
theorem readNumberParts_toDigits {input : List Char} {negative : Bool} {number : Nat}
    (signed : signPart input = (negative, Nat.toDigits 10 number)) :
    readNumberParts input = some (⟨negative, decimals number, [], none⟩, []) := by
  have decimal : ∀ char ∈ Nat.toDigits 10 number, char.isDigit = true :=
    fun _ => Nat.isDigit_of_mem_toDigits (by decide) (by decide)
  have some : (decimals number).isEmpty = false := by simp [decimals]
  have leading : ((decimals number).head? == Option.some 0 && decide ((decimals number).length ≠ 1)) = false := by
    rcases Nat.eq_zero_or_pos number with rfl | positive
    · decide
    · simp [decimals_head positive]
  rw [readNumberParts_eq, signed]
  dsimp only
  rw [digitRun_decimal decimal]
  dsimp only
  rw [← decimals, some, leading]
  rfl

theorem Number.chars_ofNat (number : Nat) :
    (Number.integer (Int.ofNat number)).chars = Nat.toDigits 10 number := by
  rw [Number.chars, Int.toString_eq_repr, Int.repr, Nat.repr, String.toList_ofList]

theorem Number.chars_negSucc (number : Nat) :
    (Number.integer (Int.negSucc number)).chars = '-' :: Nat.toDigits 10 (number + 1) := by
  simp only [Number.chars, Int.toString_eq_repr, Int.repr, Nat.repr, String.toList_append,
    String.toList_ofList]
  rfl

/-- Integers of 64 bits are read back. -/
theorem Number.readsBack_integer {value : Int} (low : -(Width.half 64 : Int) ≤ value)
    (high : value < significandBound) : (Number.integer value).ReadsBack := by
  unfold ReadsBack readNumber
  cases value with
  | ofNat number =>
      have decimal : ∀ char ∈ Nat.toDigits 10 number, char.isDigit = true :=
        fun _ => Nat.isDigit_of_mem_toDigits (by decide) (by decide)
      have fits : number < significandBound := Int.ofNat_lt.1 high
      rw [chars_ofNat, readNumberParts_toDigits (signPart_decimal decimal)]
      simp [NumberParts.number?, foldl_decimals, fits]
  | negSucc number =>
      have half : number + 1 ≤ Width.half 64 := by omega
      have fits : number + 1 < significandBound := Nat.lt_of_le_of_lt half (by decide)
      have signed : signPart ('-' :: Nat.toDigits 10 (number + 1)) = (true, Nat.toDigits 10 (number + 1)) := rfl
      have value : NumberParts.number? ⟨true, decimals (number + 1), [], none⟩ =
          some (.integer (Int.negSucc number)) := by
        simp only [NumberParts.number?, foldl_decimals]
        rw [if_pos ⟨rfl, rfl, fits⟩, if_neg (by simp), if_pos ⟨Nat.succ_pos _, half⟩]
        rfl
      rw [chars_negSucc, readNumberParts_toDigits signed]
      simp [value]

end HostPruning.Json
