import HostPruning.Database.Import

/-!
# Records on lines

The compact text of a record is a line: it has no control character whatever texts, numbers and names
stand in it (`printable_chars`), so its bytes have no line break (`lineBreak_not_mem_utf8`), and its
braces keep it as it is when blanks are trimmed (`trim_braced`). So texts written one a line are the lines
of the bytes, of a file (`fileLines_of_holds`) as well as of a stream that may be torn
(`splitOn_terminated_append`).
-/

namespace HostPruning

namespace Json

/-! ### Printable text -/

/-- Whether no character is a control character. -/
def Printable (chars : List Char) : Prop := ∀ char ∈ chars, 0x20 ≤ char.toNat

instance (chars : List Char) : Decidable (Printable chars) :=
  List.decidableBAll _ chars

namespace Printable

variable {chars first second : List Char}

theorem nil : Printable [] := by simp [Printable]

@[simp]
theorem cons_iff {char : Char} : Printable (char :: chars) ↔ 0x20 ≤ char.toNat ∧ Printable chars :=
  List.forall_mem_cons

@[simp]
theorem append_iff : Printable (first ++ second) ↔ Printable first ∧ Printable second :=
  List.forall_mem_append

theorem sublist (printable : Printable chars) (within : first.Sublist chars) : Printable first :=
  fun char among => printable char (within.subset among)

theorem digits (number : Nat) : Printable (Nat.toDigits 10 number) := by
  intro char among
  have digit := Nat.isDigit_of_mem_toDigits (by decide) (by decide) among
  simp only [Char.isDigit, Bool.and_eq_true, decide_eq_true_eq] at digit
  exact Nat.le_trans (by decide) (show 48 ≤ char.toNat from digit.1)

theorem zeros (count : Nat) : Printable (List.replicate count '0') := by
  intro char among
  rw [List.eq_of_mem_replicate among]
  decide

theorem integer (value : Int) : Printable (toString value).toList := by
  cases value with
  | ofNat number =>
      rw [Int.toString_eq_repr, Int.repr, Nat.repr, String.toList_ofList]
      exact digits number
  | negSucc number =>
      simp only [Int.toString_eq_repr, Int.repr, Nat.repr, String.toList_append, String.toList_ofList]
      exact append_iff.2 ⟨by decide, digits _⟩

end Printable

theorem Binary64.printable_chars (value : Binary64) : Printable value.chars := by
  have sign : Printable (if value.negative then ['-'] else []) := by
    split <;> simp [Printable.nil]
  have digits := Printable.digits value.shortest.digits
  unfold Binary64.chars
  dsimp only
  split
  · exact Printable.append_iff.2 ⟨sign, by decide⟩
  · refine Printable.append_iff.2 ⟨sign, ?_⟩
    split
    · exact Printable.append_iff.2 ⟨Printable.append_iff.2 ⟨digits, .zeros _⟩, by decide⟩
    split
    · exact Printable.append_iff.2 ⟨digits.sublist (List.take_sublist _ _),
        Printable.cons_iff.2 ⟨by decide, digits.sublist (List.drop_sublist _ _)⟩⟩
    split
    · simpa using And.intro (Printable.zeros _) digits
    · split
      next only same =>
        rw [same] at digits
        exact Printable.cons_iff.2 ⟨(Printable.cons_iff.1 digits).1,
          Printable.cons_iff.2 ⟨by decide, .integer _⟩⟩
      next first rest _ same =>
        rw [same, Printable.cons_iff] at digits
        refine Printable.append_iff.2 ⟨?_, Printable.cons_iff.2 ⟨by decide, .integer _⟩⟩
        exact Printable.cons_iff.2 ⟨digits.1, Printable.cons_iff.2 ⟨by decide, digits.2⟩⟩
      next => exact .nil

theorem printable_hexDigit : ∀ digit < 16, 0x20 ≤ (hexDigit digit).toNat := by decide

theorem printable_escape (char : Char) : Printable (escape char) := by
  unfold escape
  split
  · decide
  split
  · decide
  split
  next control =>
    split
    case h_6 =>
      have high := printable_hexDigit (char.toNat / 16) (by omega)
      have low := printable_hexDigit (char.toNat % 16) (by omega)
      simp [Printable.nil, high, low]
    all_goals decide
  next plain => simpa [Printable.nil] using plain

theorem printable_quote (text : String) : Printable (quote text) := by
  have inside : Printable (text.toList.flatMap escape) := by
    intro char among
    obtain ⟨written, -, piece⟩ := List.mem_flatMap.1 among
    exact printable_escape written char piece
  simp [quote, inside, Printable.nil]

mutual

/-- The compact text of a value has no control character. -/
theorem printable_chars : (value : Json) → Printable value.chars
  | null => by decide
  | bool true => by decide
  | bool false => by decide
  | number (.integer value) => Printable.integer value
  | number (.real value) => value.printable_chars
  | string text => printable_quote text
  | array items => by
      have inside := printable_itemChars items
      simp [chars, inside, Printable.nil]
  | object members => by
      have inside := printable_memberChars members
      simp [chars, inside, Printable.nil]

theorem printable_itemChars : (items : List Json) → Printable (itemChars items)
  | [] => Printable.nil
  | [only] => by
      rw [itemChars]
      exact printable_chars only
  | item :: next :: rest => by
      have here := printable_chars item
      have later := printable_itemChars (next :: rest)
      simp [itemChars, here, later]

theorem printable_memberChars : (members : List (String × Json)) → Printable (memberChars members)
  | [] => Printable.nil
  | [(name, value)] => by
      have here := printable_chars value
      simp [memberChars, here, printable_quote]
  | (name, value) :: next :: rest => by
      have here := printable_chars value
      have later := printable_memberChars (next :: rest)
      simp [memberChars, here, later, printable_quote]

end

theorem printable_render (value : Json) : Printable value.render.toList := by
  rw [render, String.toList_ofList]
  exact printable_chars value

end Json

namespace Text

/-! ### Bytes -/

theorem toByteArray_utf8 (text : String) : (⟨(utf8 text).toArray⟩ : ByteArray) = text.toByteArray := by
  rw [← String.utf8Encode_toList]
  exact ByteArray.ext (by simp [List.utf8Encode, utf8])

/-- A text is read back from its bytes. -/
theorem fromUTF8?_utf8 (text : String) : String.fromUTF8? ⟨(utf8 text).toArray⟩ = some text := by
  rw [toByteArray_utf8, String.fromUTF8?, dif_pos text.isValidUTF8]
  rfl

/-- Only the line feed is written with a byte 10. -/
theorem eq_of_lineBreak_mem {char : Char} (present : 10 ∈ String.utf8EncodeChar char) : char.toNat = 10 := by
  have byte (number : Nat) : (10 : UInt8) = UInt8.ofNat number ↔ number % 256 = 10 := by
    rw [eq_comm, UInt8.ofNat_eq_iff_mod_eq_toNat]
    rfl
  have code : char.val.toNat = char.toNat := rfl
  unfold String.utf8EncodeChar at present
  simp only [code] at present
  split at present
  · simp only [List.mem_singleton, byte] at present
    omega
  split at present
  · simp only [List.mem_cons, List.not_mem_nil, or_false, byte] at present
    omega
  split at present
  · simp only [List.mem_cons, List.not_mem_nil, or_false, byte] at present
    omega
  · simp only [List.mem_cons, List.not_mem_nil, or_false, byte] at present
    omega

/-- The bytes of a text without control characters have no line break. -/
theorem lineBreak_not_mem_utf8 {text : String} (printable : Json.Printable text.toList) : 10 ∉ utf8 text := by
  intro present
  obtain ⟨char, among, here⟩ := List.mem_flatMap.1 present
  have visible := printable char among
  rw [eq_of_lineBreak_mem here] at visible
  exact absurd visible (by decide)

/-- What stands between braces is not trimmed. -/
theorem trim_braced (inside : List Char) :
    trim (String.ofList ('{' :: inside ++ ['}'])) = String.ofList ('{' :: inside ++ ['}']) := by
  have opening : isBlank '{' = false := by decide
  have closing : isBlank '}' = false := by decide
  simp [trim, trimWhere, opening, closing]

end Text

/-! ### Lines -/

/-- Lines in a row, each with its line break. -/
def terminated (lines : List (List UInt8)) : List UInt8 := lines.flatMap fun line => line ++ [10]

theorem terminated_append (first second : List (List UInt8)) :
    terminated (first ++ second) = terminated first ++ terminated second := List.flatMap_append

namespace Database

/-- Lines that were written each with its line break are the lines of the bytes. -/
theorem splitLines_terminated {lines : List (List UInt8)} (whole : ∀ line ∈ lines, 10 ∉ line) :
    splitLines (terminated lines) = lines := by
  have one (begun line rest : List UInt8) (whole : 10 ∉ line) :
      splitLinesAfter begun (line ++ 10 :: rest) = (begun.reverse ++ line) :: splitLines rest := by
    induction line generalizing begun with
    | nil => simp [splitLinesAfter, splitLines]
    | cons byte others inductionHypothesis =>
        rw [List.mem_cons, not_or] at whole
        rw [List.cons_append, splitLinesAfter, if_neg (Ne.symm whole.1), inductionHypothesis _ whole.2]
        simp
  induction lines with
  | nil => rfl
  | cons line others inductionHypothesis =>
      rw [List.forall_mem_cons] at whole
      rw [terminated, List.flatMap_cons, List.append_assoc, List.singleton_append, splitLines,
        one [] line _ whole.1]
      exact congrArg (line :: ·) (inductionHypothesis whole.2)

/-- The line break behind the last line may be missing. -/
theorem splitLines_append_lineBreak {bytes : List UInt8} (unbroken : ∃ last ∈ bytes.getLast?, last ≠ 10) :
    splitLines (bytes ++ [10]) = splitLines bytes := by
  have onward (begun bytes : List UInt8) (unbroken : ∀ last ∈ bytes.getLast?, last ≠ 10)
      (open_ : bytes = [] → begun ≠ []) :
      splitLinesAfter begun (bytes ++ [10]) = splitLinesAfter begun bytes := by
    induction bytes generalizing begun with
    | nil => simp [splitLinesAfter, open_ rfl]
    | cons byte rest inductionHypothesis =>
        have further : ∀ last ∈ rest.getLast?, last ≠ 10 := by
          intro last found
          refine unbroken last ?_
          rw [List.getLast?_cons, Option.mem_def.1 found]
          rfl
        rw [List.cons_append, splitLinesAfter, splitLinesAfter]
        split
        next break_ =>
          refine congrArg (begun.reverse :: ·) (inductionHypothesis [] further ?_)
          rintro rfl
          exact absurd break_ (unbroken byte rfl)
        next => exact inductionHypothesis (byte :: begun) further (by simp)
  obtain ⟨last, found, apart⟩ := unbroken
  refine onward [] bytes (fun other also => ?_) ?_
  · rwa [← Option.mem_unique found also]
  · rintro rfl
    cases found

/-- Whether bytes are some lines in a row. The line break behind the last line may be missing. -/
def Holds (lines : List (List UInt8)) (bytes : List UInt8) : Prop :=
  bytes = terminated lines ∨ bytes ++ [10] = terminated lines

/-- Lines that are not empty are the lines of the bytes that hold them. -/
theorem splitLines_of_holds {lines : List (List UInt8)} {bytes : List UInt8} (holds : Holds lines bytes)
    (whole : ∀ line ∈ lines, 10 ∉ line) (filled : ∀ line ∈ lines, line ≠ []) :
    splitLines bytes = lines := by
  rcases holds with rfl | open_
  · exact splitLines_terminated whole
  rcases List.eq_nil_or_concat lines with rfl | ⟨before, last, rfl⟩
  · exact absurd open_ (by simp [terminated])
  rw [List.concat_eq_append] at *
  obtain ⟨byte, found⟩ := Option.ne_none_iff_exists'.1
    (mt List.getLast?_eq_none_iff.1 (filled last (List.mem_concat_self ..)))
  have split : bytes = terminated before ++ last := by
    have one : terminated [last] = last ++ [10] := by simp [terminated]
    rw [terminated_append, one, ← List.append_assoc] at open_
    exact List.append_cancel_right open_
  have apart : byte ≠ 10 := by
    rintro rfl
    exact whole last (List.mem_concat_self ..) (List.mem_of_getLast? found)
  rw [← splitLines_terminated whole, ← open_]
  refine (splitLines_append_lineBreak ⟨byte, ?_, apart⟩).symm
  rw [split, List.getLast?_append, found]
  rfl

/-- Texts that are not empty and have no control characters are the lines of a file that holds them. -/
theorem fileLines_of_holds {texts : List String} {bytes : List UInt8}
    (holds : Holds (texts.map Text.utf8) bytes) (printable : ∀ text ∈ texts, Json.Printable text.toList)
    (filled : ∀ text ∈ texts, Text.utf8 text ≠ []) : fileLines bytes = texts.map some := by
  have whole : ∀ line ∈ texts.map Text.utf8, 10 ∉ line := by
    intro line among
    obtain ⟨text, present, rfl⟩ := List.mem_map.1 among
    exact Text.lineBreak_not_mem_utf8 (printable text present)
  rw [fileLines, splitLines_of_holds holds whole (List.forall_mem_map.2 filled), List.map_map]
  exact List.map_congr_left fun text _ => Text.fromUTF8?_utf8 text

end Database

end HostPruning
