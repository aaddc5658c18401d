import Mathlib.Data.String.Basic
import HostPruning.HostId

/-!
# Identifiers and their texts

An identifier is read back from its text, and texts of identifiers compare as the identifiers
do. Both rest on the digits: 26 of them hold more than 128 bits, all texts have equally many,
and the alphabet ascends.
-/

namespace HostPruning

/-- Lists of one length compare at the first place where they differ, whatever follows. -/
theorem append_lt_append {Element : Type} [LT Element] {left right : List Element}
    (aligned : left.length = right.length) (less : left < right) (leftRest rightRest : List Element) :
    left ++ leftRest < right ++ rightRest := by
  induction left generalizing right with
  | nil => simp [List.length_eq_zero_iff.1 aligned.symm] at less
  | cons head tail inductionHypothesis =>
      cases right with
      | nil => simp at aligned
      | cons otherHead otherTail =>
          rw [List.cons_append, List.cons_append, List.cons_lt_cons_iff]
          rcases List.cons_lt_cons_iff.1 less with first | ⟨same, later⟩
          · exact Or.inl first
          · exact Or.inr ⟨same, inductionHypothesis (by simpa using aligned) later⟩

namespace HostId

/-! ### Digits -/

@[simp]
theorem length_digits (count number : Nat) : (digits count number).length = count := by
  induction count generalizing number with
  | zero => rfl
  | succ count inductionHypothesis => simp [digits, inductionHypothesis]

theorem lt_of_mem_digits {count number digit : Nat} (present : digit ∈ digits count number) :
    digit < 32 := by
  induction count generalizing number with
  | zero => simp [digits] at present
  | succ count inductionHypothesis =>
      rcases List.mem_append.1 present with earlier | last
      · exact inductionHypothesis earlier
      · rw [List.mem_singleton.1 last]
        exact Nat.mod_lt _ (by decide)

/-- Some lowest digits of a number spell what its higher digits leave of it. -/
theorem ofDigits_digits (count number : Nat) :
    ofDigits (digits count number) = number % 32 ^ count := by
  induction count generalizing number with
  | zero => simp [digits, ofDigits, Nat.mod_one]
  | succ count inductionHypothesis =>
      have split : ofDigits (digits (count + 1) number) =
          ofDigits (digits count (number / 32)) * 32 + number % 32 := by
        simp [digits, ofDigits]
      rw [split, inductionHypothesis, Nat.pow_succ', Nat.mod_mul]
      omega

/-! ### Characters -/

/-- The alphabet ascends. -/
theorem digitChar_lt : ∀ left < 32, ∀ right < 32, left < right → digitChar left < digitChar right := by
  decide

theorem charDigit_digitChar : ∀ digit < 32, charDigit (digitChar digit) = some digit := by
  decide

/-- Every character of the alphabet takes one byte. -/
theorem utf8Size_digitChar : ∀ digit < 32, (digitChar digit).utf8Size = 1 := by
  decide

theorem mapM_charDigit {spelled : List Nat} (small : ∀ digit ∈ spelled, digit < 32) :
    (spelled.map digitChar).mapM charDigit = some spelled := by
  induction spelled with
  | nil => rfl
  | cons digit rest inductionHypothesis =>
      have first := charDigit_digitChar digit (small digit List.mem_cons_self)
      have later := inductionHypothesis fun other among => small other (List.mem_cons_of_mem _ among)
      simp [first, later]

theorem utf8Len_map_digitChar {spelled : List Nat} (small : ∀ digit ∈ spelled, digit < 32) :
    String.utf8Len (spelled.map digitChar) = spelled.length := by
  induction spelled with
  | nil => rfl
  | cons digit rest inductionHypothesis =>
      have first := utf8Size_digitChar digit (small digit List.mem_cons_self)
      have later := inductionHypothesis fun other among => small other (List.mem_cons_of_mem _ among)
      rw [List.map_cons, String.utf8Len_cons, first, later, List.length_cons]

/-- Numbers of so many digits compare as what stands for their digits, if that ascends with them. -/
theorem map_digits_lt {Element : Type} [LT Element] {sign : Nat → Element}
    (ascends : ∀ left < 32, ∀ right < 32, left < right → sign left < sign right) {count left right : Nat}
    (bounded : right < 32 ^ count) (less : left < right) :
    (digits count left).map sign < (digits count right).map sign := by
  induction count generalizing left right with
  | zero => simp at bounded; omega
  | succ count inductionHypothesis =>
      simp only [digits, List.map_append, List.map_cons, List.map_nil]
      rcases Nat.lt_or_eq_of_le (Nat.div_le_div_right (c := 32) less.le) with above | same
      · have higher : right / 32 < 32 ^ count :=
          Nat.div_lt_of_lt_mul (by rwa [Nat.pow_succ'] at bounded)
        exact append_lt_append (by simp) (inductionHypothesis higher above) _ _
      · have last : sign (left % 32) < sign (right % 32) :=
          ascends _ (Nat.mod_lt _ (by decide)) _ (Nat.mod_lt _ (by decide)) (by omega)
        rw [same]
        exact List.append_left_lt (List.cons_lt_cons_iff.2 (Or.inl last))

/-! ### Texts -/

/-- An identifier is read back from its text. -/
theorem parse_text (id : HostId) : parse id.text = .ok id := by
  have small : ∀ digit ∈ digits width id.value, digit < 32 := fun _ => lt_of_mem_digits
  have sized : id.text.utf8ByteSize = width := by
    rw [text, String.utf8ByteSize_ofList, chars, utf8Len_map_digitChar small, length_digits]
  have spelled : id.text.toList.mapM charDigit = some (digits width id.value) := by
    rw [text, String.toList_ofList, chars, mapM_charDigit small]
  have fits : id.value < 32 ^ width := id.bounded.trans (by decide)
  simp only [parse, sized, spelled]
  rw [if_neg (by simp), ofDigits_digits, Nat.mod_eq_of_lt fits]
  exact congrArg Except.ok (ext (Nat.mod_eq_of_lt id.bounded))

theorem text_injective {left right : HostId} (same : left.text = right.text) : left = right := by
  have read := parse_text left
  rw [same, parse_text right] at read
  exact (Except.ok.inj read).symm

theorem text_inj {left right : HostId} : left.text = right.text ↔ left = right :=
  ⟨text_injective, congrArg text⟩

theorem text_lt_of_lt {left right : HostId} (less : left < right) : left.text < right.text := by
  rw [String.lt_iff_toList_lt, text, text, String.toList_ofList, String.toList_ofList]
  exact map_digits_lt digitChar_lt (right.bounded.trans (by decide)) less

/-- Texts of identifiers compare as the identifiers do. -/
theorem text_lt_text {left right : HostId} : left.text < right.text ↔ left < right := by
  refine ⟨fun less => ?_, text_lt_of_lt⟩
  rcases AscendingKey.total left right with below | rfl | above
  · exact below
  · exact absurd less (AscendingKey.irrefl _)
  · exact absurd (AscendingKey.trans less (text_lt_of_lt above)) (AscendingKey.irrefl _)

end HostId

end HostPruning
