import HostPruning.Proofs.Numerals

/-!
# The texts of floats

The text of every float is a number of JSON from its first character to its last, however it is laid
out (`Binary64.legible_chars`). So a reader that keeps the largest float in place of a larger one reads
the text of any number (`Number.exists_read`), though not always as that number.
What a text needs is said of its parts: `Digits` behind a point, `Leading` digits in front of it, and
`Closing` for what may end a number.
-/

namespace HostPruning.Json

/-- Decimal digits, at least one. -/
structure Digits (digits : List Char) : Prop where
  decimal : ∀ char ∈ digits, char.isDigit = true
  some : digits ≠ []

/-- Digits that a number may begin with: a zero in front stands alone. -/
structure Leading (digits : List Char) : Prop extends Digits digits where
  proper : (digits.map fun char => char.toNat - 48).head? ≠ Option.some 0 ∨ digits.length = 1

/-- What may end a number once its whole digits and its fraction are read. -/
structure Closing (tail : List Char) : Prop where
  apart : ∀ char ∈ tail.head?, char.isDigit = false ∧ char ≠ '.'
  read : ∀ negative whole fraction, (withExponent negative whole fraction tail).map Prod.snd = some []

/-- A text that is one number. -/
def Legible (input : List Char) : Prop := (readNumberParts input).map Prod.snd = some []

namespace Digits

variable {digits more : List Char}

theorem append (front : Digits digits) (decimal : ∀ char ∈ more, char.isDigit = true) :
    Digits (digits ++ more) where
  decimal char among := (List.mem_append.1 among).elim (front.decimal char) (decimal char)
  some := List.append_ne_nil_of_left_ne_nil front.some more

theorem behind (rear : Digits more) (decimal : ∀ char ∈ digits, char.isDigit = true) :
    Digits (digits ++ more) where
  decimal char among := (List.mem_append.1 among).elim (decimal char) (rear.decimal char)
  some := List.append_ne_nil_of_right_ne_nil digits rear.some

theorem toDigits (number : Nat) : Digits (Nat.toDigits 10 number) where
  decimal _ among := Nat.isDigit_of_mem_toDigits (by decide) (by decide) among
  some := by
    rw [← List.length_pos_iff]
    exact Nat.length_toDigits_pos

theorem drop (spelled : Digits digits) {count : Nat} (short : count < digits.length) :
    Digits (digits.drop count) where
  decimal char among := spelled.decimal char (List.mem_of_mem_drop among)
  some := by simpa using short

theorem isEmpty_map (spelled : Digits digits) :
    (digits.map fun char => char.toNat - 48).isEmpty = false := by
  simpa using spelled.some

theorem exponentSign_eq (spelled : Digits digits) : exponentSign digits = (false, digits) := by
  unfold exponentSign
  split
  · exact absurd (spelled.decimal '-' List.mem_cons_self) (by decide)
  · exact absurd (spelled.decimal '+' List.mem_cons_self) (by decide)
  · rfl

end Digits

theorem zeros_decimal (count : Nat) : ∀ char ∈ List.replicate count '0', char.isDigit = true := by
  intro char among
  rw [(List.mem_replicate.1 among).2]
  decide

namespace Leading

theorem single {char : Char} (decimal : char.isDigit = true) : Leading [char] where
  decimal := by simpa using decimal
  some := List.cons_ne_nil char []
  proper := Or.inr rfl

variable {digits : List Char} (nonzero : (digits.map fun char => char.toNat - 48).head? ≠ some 0)
include nonzero

theorem append (front : Digits digits) {more : List Char} (decimal : ∀ char ∈ more, char.isDigit = true) :
    Leading (digits ++ more) where
  toDigits := front.append decimal
  proper := by
    rw [List.map_append, List.head?_append_of_ne_nil _ (by simpa using front.some)]
    exact Or.inl nonzero

theorem take (spelled : Digits digits) {count : Nat} (positive : 0 < count) : Leading (digits.take count) where
  decimal char among := spelled.decimal char (List.mem_of_mem_take among)
  some := by simpa [Nat.pos_iff_ne_zero.1 positive] using spelled.some
  proper := by
    rw [List.map_take, List.head?_take, if_neg (Nat.pos_iff_ne_zero.1 positive)]
    exact Or.inl nonzero

end Leading

namespace Closing

theorem nil : Closing [] where
  apart := by simp
  read _ _ _ := rfl

/-- An exponent may end a number, whatever its sign. -/
theorem exponent (power : Int) : Closing ('e' :: (toString power).toList) where
  apart := by simp
  read negative whole fraction := by
    obtain ⟨down, digits, signed, spelled⟩ : ∃ down digits,
        exponentSign (toString power).toList = (down, digits) ∧ Digits digits := by
      cases power with
      | ofNat number =>
          have digits := Digits.toDigits number
          exact ⟨false, _, Number.chars_ofNat number ▸ digits.exponentSign_eq, digits⟩
      | negSucc number =>
          have signed : exponentSign ('-' :: Nat.toDigits 10 (number + 1)) =
              (true, Nat.toDigits 10 (number + 1)) := rfl
          exact ⟨true, _, (congrArg exponentSign (Number.chars_negSucc number)).trans signed, .toDigits _⟩
    rw [withExponent, if_pos (Or.inl rfl), signed]
    dsimp only
    rw [digitRun_decimal spelled.decimal]
    dsimp only
    rw [spelled.isEmpty_map]
    rfl

/-- So may a point with digits behind it, in front of what else may end one. -/
theorem withFraction_point {tail more : List Char} (closing : Closing tail) (digits : Digits more)
    (negative : Bool) (whole : List Nat) :
    (withFraction negative whole ('.' :: (more ++ tail))).map Prod.snd = some [] := by
  rw [withFraction, digitRun_decimal_append digits.decimal fun char head => (closing.apart char head).1]
  dsimp only
  rw [digits.isEmpty_map]
  exact closing.read negative whole _

theorem withFraction_eq {tail : List Char} (closing : Closing tail) (negative : Bool) (whole : List Nat) :
    (withFraction negative whole tail).map Prod.snd = some [] := by
  unfold withFraction
  split
  · exact absurd rfl (closing.apart '.' rfl).2
  · exact closing.read negative whole []

end Closing

/-- The sign in front of a number. -/
def signChars (negative : Bool) : List Char := if negative then ['-'] else []

/-- A number is legible if what stands behind its whole digits is. -/
theorem Leading.legible {digits rest : List Char} (leading : Leading digits)
    (apart : ∀ char ∈ rest.head?, char.isDigit = false) (negative : Bool)
    (read : ∀ whole, (withFraction negative whole rest).map Prod.snd = some []) :
    Legible (signChars negative ++ (digits ++ rest)) := by
  have unsigned : signPart (digits ++ rest) = (false, digits ++ rest) := by
    cases digits with
    | nil => exact absurd rfl leading.some
    | cons char others =>
        unfold signPart
        split
        next same =>
          obtain ⟨rfl, -⟩ := List.cons.inj same
          exact absurd (leading.decimal '-' List.mem_cons_self) (by decide)
        next => rfl
  have signed : signPart (signChars negative ++ (digits ++ rest)) = (negative, digits ++ rest) := by
    cases negative with
    | false => exact unsigned
    | true => rfl
  have proper : (((digits.map fun char => char.toNat - 48).head? == some 0) &&
      decide ((digits.map fun char => char.toNat - 48).length ≠ 1)) = false := by
    rcases leading.proper with noZero | alone
    · simp only [beq_eq_false_iff_ne.2 noZero, Bool.false_and]
    · simp [alone]
  rw [Legible, readNumberParts_eq, signed]
  dsimp only
  rw [digitRun_decimal_append leading.decimal apart]
  dsimp only
  rw [leading.isEmpty_map, proper]
  exact read _

namespace Binary64

/-! ### The shortest decimal -/

/-- A search never settles on zero. -/
theorem digits_ne_zero_of_searchGrids {range : Interval} {leading : Int} {budget : Nat} {places : Int}
    {found : Decimal} (searched : searchGrids range leading budget places = some found) :
    found.digits ≠ 0 := by
  induction budget generalizing places with
  | zero => cases searched
  | succ budget inductionHypothesis =>
      unfold searchGrids at searched
      split at searched
      next other _ =>
        split at searched
        next => exact inductionHypothesis searched
        next nonzero =>
          cases searched
          exact nonzero
      next => exact inductionHypothesis searched

theorem digits_stripZeros {budget : Nat} {decimal : Decimal} (nonzero : decimal.digits ≠ 0) :
    (stripZeros budget decimal).digits ≠ 0 := by
  induction budget generalizing decimal with
  | zero => exact nonzero
  | succ budget inductionHypothesis =>
      unfold stripZeros
      split
      next trailing =>
        apply inductionHypothesis
        dsimp only
        omega
      next => exact nonzero

theorem digits_shortest {value : Binary64} (nonzero : value.significand ≠ 0) :
    value.shortest.digits ≠ 0 := by
  unfold shortest
  apply digits_stripZeros
  cases searched : searchGrids value.interval (leadingPower value.magnitude) 18 0 with
  | none => exact nonzero
  | some found => exact digits_ne_zero_of_searchGrids searched

/-! ### Layouts -/

/-- The text of a positive value, given its digits and the power of ten of the last one. -/
def layout (digits : List Char) (exponent : Int) : List Char :=
  let point : Int := digits.length + exponent
  if 0 ≤ exponent ∧ point ≤ positional.greatest then
    digits ++ List.replicate exponent.toNat '0' ++ ['.', '0']
  else if 0 < point ∧ point ≤ positional.greatest then
    digits.take point.toNat ++ '.' :: digits.drop point.toNat
  else if positional.least ≤ point ∧ point ≤ 0 then
    '0' :: '.' :: List.replicate (-point).toNat '0' ++ digits
  else
    let power := (toString (point - 1)).toList
    match digits with
    | [only] => only :: 'e' :: power
    | first :: rest => first :: '.' :: rest ++ 'e' :: power
    | [] => []

theorem chars_eq_layout {value : Binary64} (nonzero : value.significand ≠ 0) :
    value.chars = signChars value.negative ++
      layout (Nat.toDigits 10 value.shortest.digits) value.shortest.exponent := by
  unfold chars
  rw [if_neg nonzero]
  rfl

/-- Every layout of digits without a zero in front is one number. -/
theorem legible_layout {digits : List Char} (spelled : Digits digits)
    (headed : (digits.map fun char => char.toNat - 48).head? ≠ some 0) (negative : Bool)
    (exponent : Int) : Legible (signChars negative ++ layout digits exponent) := by
  have zero : Digits ['0'] := Digits.toDigits 0
  unfold layout
  dsimp only
  split
  next => -- zeros behind the digits
    exact (Leading.append headed spelled (zeros_decimal _)).legible (by simp) _
      (Closing.nil.withFraction_point zero _)
  next noWhole =>
    split
    next inside => -- the point among the digits
      have rest : Digits (digits.drop (digits.length + exponent).toNat) := spelled.drop (by omega)
      have read := Closing.nil.withFraction_point rest negative
      rw [List.append_nil] at read
      exact (Leading.take headed spelled (by omega)).legible (by simp) _ read
    next noPoint =>
      split
      next => -- zeros between the point and the digits
        have rest : Digits (List.replicate (-(digits.length + exponent)).toNat '0' ++ digits) :=
          spelled.behind (zeros_decimal _)
        have read := Closing.nil.withFraction_point rest negative
        rw [List.append_nil] at read
        exact (Leading.single rfl).legible (by simp) _ read
      next => -- an exponent
        have closing := Closing.exponent (digits.length + exponent - 1)
        generalize (toString (digits.length + exponent - 1)).toList = power at closing ⊢
        cases digits with
        | nil => exact absurd rfl spelled.some
        | cons first rest =>
            have leading := Leading.single (spelled.decimal first List.mem_cons_self)
            cases rest with
            | nil =>
                exact leading.legible (fun char head => (closing.apart char head).1) _
                  (closing.withFraction_eq negative)
            | cons next others =>
                have behind : Digits (next :: others) := @Digits.drop _ spelled 1 (by simp)
                exact leading.legible (by simp) _ (closing.withFraction_point behind negative)

/-- The text of a float is one number. -/
theorem legible_chars (value : Binary64) : Legible value.chars := by
  by_cases nonzero : value.significand = 0
  · have written : value.chars = signChars value.negative ++ (['0'] ++ ['.', '0']) := by
      unfold chars
      rw [if_pos nonzero]
      rfl
    rw [written]
    exact (Leading.single rfl).legible (by simp) _ (Closing.nil.withFraction_point (Digits.toDigits 0) _)
  · rw [chars_eq_layout nonzero]
    exact legible_layout (Digits.toDigits _)
      (decimals_head (Nat.pos_of_ne_zero (digits_shortest nonzero))) _ _

end Binary64

/-! ### Numbers -/

/-- The text of a number is one number. -/
theorem Number.legible_chars (value : Number) : Legible value.chars := by
  cases value with
  | real value => exact value.legible_chars
  | integer value =>
      cases value with
      | ofNat number =>
          have decimal := (Digits.toDigits number).decimal
          rw [chars_ofNat, Legible, readNumberParts_toDigits (signPart_decimal decimal)]
          rfl
      | negSucc number =>
          have signed : signPart ('-' :: Nat.toDigits 10 (number + 1)) =
              (true, Nat.toDigits 10 (number + 1)) := rfl
          rw [chars_negSucc, Legible, readNumberParts_toDigits signed]
          rfl

/-- The text of every number is read to its end, if numbers beyond the largest float are not refused. -/
theorem Number.exists_read {dialect : Dialect} (lenient : dialect.strict = false) (value : Number) :
    ∃ read, readNumber dialect value.chars = some (read, []) := by
  obtain ⟨⟨parts, rest⟩, taken, rfl⟩ := Option.map_eq_some_iff.1 value.legible_chars
  unfold readNumber
  rw [taken]
  cases made : parts.number? with
  | some read => exact ⟨read, by simp [made]⟩
  | none => exact ⟨_, by simp [made, lenient]; rfl⟩

end HostPruning.Json
