import Mathlib.Data.List.Forall2
import HostPruning.Proofs.Floats
import HostPruning.Proofs.Loading

/-!
# Printed values are read back

`readAs_render` says that the compact text of a value is read as that value, for every value a
record can hold: `Recordable` asks for integers of 64 bits, names that are given once, not more
levels than a record may have, and floats whose text is read back. There is a lemma for strings
and one for each kind of value that carries along what may follow it (`ReadsAs`); these tell also
what is read when a number inside is not read back.
-/

namespace HostPruning.Json

/-! ### Strings -/

theorem hexDigit?_hexDigit : ∀ digit < 16, hexDigit? (hexDigit digit) = some digit := by
  decide

/-- Whether a piece of a string stands for a character, whatever comes after it. -/
def Piece.For (char : Char) (piece : Piece) : Prop :=
  ∀ dialect pieces, joinPieces dialect (piece :: pieces) = (joinPieces dialect pieces).map (char :: ·)

theorem Piece.for_plain (char : Char) : Piece.For char (.plain char) := fun _ _ => rfl

/-- A unit below the surrogates stands for its character. -/
theorem Piece.for_unit {char : Char} (low : char.toNat < 0x20) : Piece.For char (.unit char.toNat) := by
  have noLead : leadingSurrogate char.toNat = false := by
    simp [leadingSurrogate]
    omega
  have noTrail : trailingSurrogate char.toNat = false := by
    simp [trailingSurrogate]
    omega
  intro dialect pieces
  cases pieces with
  | nil => simp [joinPieces, noLead, noTrail]
  | cons next rest => cases next <;> simp [joinPieces, noLead, noTrail]

/-- A piece in front of the pieces read from a text. -/
def withPiece (piece : Piece) (read : Option (List Piece × List Char)) : Option (List Piece × List Char) :=
  read.map fun found => (piece :: found.1, found.2)

theorem readPieces_short {letter char : Char} (escaped : shortEscape? letter = some char)
    (tail : List Char) : readPieces ('\\' :: letter :: tail) = withPiece (.plain char) (readPieces tail) := by
  have notUnit : letter ≠ 'u' := by
    rintro rfl
    cases escaped
  rw [readPieces, escaped]
  · cases readPieces tail <;> rfl
  · rintro a b c d rest rfl
    exact fun _ => notUnit rfl

theorem readPieces_unit {high low : Nat} (highFits : high < 16) (lowFits : low < 16) (tail : List Char) :
    readPieces ('\\' :: 'u' :: '0' :: '0' :: hexDigit high :: hexDigit low :: tail) =
      withPiece (.unit (high * 16 + low)) (readPieces tail) := by
  have zero : hexDigit? '0' = some 0 := by decide
  rw [readPieces, zero, hexDigit?_hexDigit high highFits, hexDigit?_hexDigit low lowFits]
  cases readPieces tail <;> simp [withPiece]

theorem readPieces_plain {char : Char} (printable : ¬ char.toNat < 0x20) (noQuote : char ≠ '"')
    (noBackslash : char ≠ '\\') (tail : List Char) :
    readPieces (char :: tail) = withPiece (.plain char) (readPieces tail) := by
  rw [readPieces]
  · rw [if_neg (by simp [printable, noBackslash])]
    cases readPieces tail <;> rfl
  all_goals simp_all

/-- An escaped character is read as one piece that stands for it. -/
theorem readPieces_escape (char : Char) (tail : List Char) :
    ∃ piece, Piece.For char piece ∧
      readPieces (escape char ++ tail) = withPiece piece (readPieces tail) := by
  unfold escape
  split
  next quote => exact ⟨_, Piece.for_plain _, readPieces_short (by rw [quote]; rfl) tail⟩
  split
  next backslash => exact ⟨_, Piece.for_plain _, readPieces_short (by rw [backslash]; rfl) tail⟩
  split
  next control =>
    have short : ∀ {letter other : Char}, shortEscape? letter = some other → char.toNat = other.toNat →
        readPieces ('\\' :: letter :: tail) = withPiece (.plain char) (readPieces tail) := by
      intro letter other escaped same
      rw [← Char.toNat_inj.1 same] at escaped
      exact readPieces_short escaped tail
    split
    next code => exact ⟨_, Piece.for_plain _, short rfl code⟩
    next code => exact ⟨_, Piece.for_plain _, short rfl code⟩
    next code => exact ⟨_, Piece.for_plain _, short rfl code⟩
    next code => exact ⟨_, Piece.for_plain _, short rfl code⟩
    next code => exact ⟨_, Piece.for_plain _, short rfl code⟩
    next =>
      refine ⟨.unit char.toNat, Piece.for_unit control, ?_⟩
      have high : char.toNat / 16 < 16 := by omega
      have read := readPieces_unit high (Nat.mod_lt char.toNat (by decide)) tail
      rwa [Nat.div_add_mod' char.toNat 16] at read
  · exact ⟨_, Piece.for_plain _, readPieces_plain ‹_› ‹_› ‹_› tail⟩

/-- A string is read back up to its closing quote. -/
theorem readString_escape (dialect : Dialect) (text : String) (rest : List Char) :
    readString dialect (text.toList.flatMap escape ++ '"' :: rest) = some (text, rest) := by
  have pieces : ∀ chars : List Char, ∃ pieces, joinPieces dialect pieces = some chars ∧
      readPieces (chars.flatMap escape ++ '"' :: rest) = some (pieces, rest) := by
    intro chars
    induction chars with
    | nil => exact ⟨[], rfl, by simp [readPieces]⟩
    | cons char tail inductionHypothesis =>
        obtain ⟨pieces, joined, read⟩ := inductionHypothesis
        obtain ⟨piece, stands, first⟩ := readPieces_escape char (tail.flatMap escape ++ '"' :: rest)
        refine ⟨piece :: pieces, ?_, ?_⟩
        · rw [stands, joined, Option.map_some]
        · rw [List.flatMap_cons, List.append_assoc, first, read]
          rfl
  obtain ⟨pieces, joined, read⟩ := pieces text.toList
  unfold readString
  rw [read]
  simp [joined]

/-! ### Values -/

/-- What a record can hold below so many levels of nesting. -/
inductive Recordable : Nat → Json → Prop where
  | null {depth : Nat} : Recordable depth .null
  | bool {depth : Nat} (value : Bool) : Recordable depth (.bool value)
  | integer {depth : Nat} {value : Int} (low : -(Width.half 64 : Int) ≤ value)
      (high : value < Width.count 64) : Recordable depth (.number (.integer value))
  | real {depth : Nat} {value : Binary64} (back : (Number.real value).ReadsBack) :
      Recordable depth (.number (.real value))
  | string {depth : Nat} (text : String) : Recordable depth (.string text)
  | array {depth : Nat} {items : List Json} (each : ∀ item ∈ items, Recordable depth item) :
      Recordable (depth + 1) (.array items)
  | object {depth : Nat} {members : Members} (once : (members.map Prod.fst).Nodup)
      (each : ∀ member ∈ members, Recordable depth member.2) : Recordable (depth + 1) (.object members)

/-- What is read as a number starts with a sign or a digit. -/
theorem readNumber_head {dialect : Dialect} {input : List Char} {result : Number × List Char}
    (read : readNumber dialect input = some result) :
    ∃ char tail, input = char :: tail ∧ (char = '-' ∨ char.isDigit = true) := by
  cases input with
  | nil => cases read
  | cons char tail =>
      refine ⟨char, tail, rfl, ?_⟩
      by_contra neither
      rw [not_or] at neither
      have unsigned : signPart (char :: tail) = (false, char :: tail) := by
        simp [signPart, neither.1]
      have noDigits : digitRun (char :: tail) = ([], char :: tail) := by
        simp [digitRun, decimalDigit?, neither.2]
      simp [readNumber, readNumberParts_eq, unsigned, noDigits] at read

theorem readValue_number {dialect : Dialect} {budget depth : Nat} {input rest : List Char} {value : Number}
    (read : readNumber dialect input = some (value, rest)) :
    readValue dialect (budget + 1) depth input = some (.number value, rest) := by
  obtain ⟨char, tail, rfl, starts⟩ := readNumber_head read
  have other : ∀ {wrong : Char}, wrong ≠ '-' → wrong.isDigit = false → char ≠ wrong := by
    rintro wrong noSign noDigit rfl
    rcases starts with sign | digit
    · exact noSign sign
    · simp [noDigit] at digit
  have unblank : skipBlank (char :: tail) = char :: tail := by
    rw [skipBlank, if_neg]
    rintro (blank | blank | blank | blank) <;> exact other (by decide) (by decide) blank
  unfold readValue
  rw [unblank]
  split
  case h_7 => rw [read]; rfl
  all_goals
    next same => exact absurd (List.cons.inj same).1 (other (by decide) (by decide))

/-- Whether the text of a value is read as some other below so many levels, in front of anything that may
follow it, with a budget of two steps for each character. -/
structure ReadsAs (dialect : Dialect) (depth : Nat) (value other : Json) : Prop where
  read : ∀ {budget : Nat} {rest : List Char}, 2 * value.chars.length ≤ budget → Follows rest →
    readValue dialect budget depth (value.chars ++ rest) = some (other, rest)

section Readers

variable {dialect : Dialect} {budget depth : Nat} {rest : List Char}

theorem readValue_array {input after : List Char} {items : List Json} {char : Char} {tail : List Char}
    (starts : input = char :: tail) (unblank : skipBlank input = input) (open_ : char ≠ ']')
    (read : readItems dialect budget depth input = some (items, after)) :
    readValue dialect (budget + 1) (depth + 1) ('[' :: input) = some (array items, after) := by
  have bracket : skipBlank ('[' :: input) = '[' :: input := by simp [skipBlank]
  rw [readValue, bracket]
  simp only [unblank]
  subst starts
  split
  next same => exact absurd (List.cons.inj same).1 open_
  next => rw [read]; rfl

theorem readValue_object {tail after : List Char} {members : Members}
    (read : readMembers dialect budget depth ('"' :: tail) = some (members, after)) :
    readValue dialect (budget + 1) (depth + 1) ('{' :: '"' :: tail) = some (object members, after) := by
  have brace : skipBlank ('{' :: '"' :: tail) = '{' :: '"' :: tail := by simp [skipBlank]
  have quote : skipBlank ('"' :: tail) = '"' :: tail := by simp [skipBlank]
  rw [readValue, brace]
  simp only [quote]
  split
  next same => exact absurd (List.cons.inj same).1 (by decide)
  next => rw [read]; rfl

/-- Items are read one by one up to the closing bracket. -/
theorem readItems_itemChars {items others : List Json} (each : List.Forall₂ (ReadsAs dialect depth) items others)
    (some : items ≠ []) (enough : 2 * (itemChars items).length + 1 ≤ budget) :
    readItems dialect budget depth (itemChars items ++ ']' :: rest) = Option.some (others, rest) := by
  induction each generalizing budget with
  | nil => exact absurd rfl some
  | @cons item other items others first each inductionHypothesis =>
      obtain ⟨less, rfl⟩ : ∃ less, budget = less + 1 := ⟨budget - 1, by omega⟩
      cases items with
      | nil =>
          cases each
          have closes : Follows (']' :: rest) := by simp [Follows]
          unfold readItems
          rw [itemChars, first.read (by simp only [itemChars] at enough; omega) closes]
          simp [skipBlank]
      | cons next items =>
          have comma : Follows (',' :: (itemChars (next :: items) ++ ']' :: rest)) := by simp [Follows]
          have lengths : (itemChars (item :: next :: items)).length =
              item.chars.length + (itemChars (next :: items)).length + 1 := by
            simp [itemChars]
            omega
          have later := inductionHypothesis (List.cons_ne_nil next items)
            (show 2 * (itemChars (next :: items)).length + 1 ≤ less by omega)
          unfold readItems
          rw [itemChars, List.append_assoc, List.cons_append, first.read (by omega) comma]
          simp [skipBlank, later]

theorem quote_append (name : String) (tail : List Char) :
    quote name ++ tail = '"' :: (name.toList.flatMap escape ++ '"' :: tail) := by
  simp [quote]

theorem skipBlank_quote (name : String) (tail : List Char) :
    skipBlank (quote name ++ tail) = '"' :: (name.toList.flatMap escape ++ '"' :: tail) := by
  rw [quote_append]
  simp [skipBlank]

theorem readMembers_last {name : String} {value : Json} {tail : List Char}
    (read : readValue dialect budget depth tail = some (value, '}' :: rest)) :
    readMembers dialect (budget + 1) depth (quote name ++ ':' :: tail) = some ([(name, value)], rest) := by
  rw [readMembers, skipBlank_quote]
  simp [readString_escape, skipBlank, read]

theorem readMembers_more {name : String} {value : Json} {others : Members} {tail more : List Char}
    (read : readValue dialect budget depth tail = some (value, ',' :: more))
    (later : readMembers dialect budget depth more = some (others, rest)) :
    readMembers dialect (budget + 1) depth (quote name ++ ':' :: tail) =
      some ((name, value) :: others, rest) := by
  rw [readMembers, skipBlank_quote]
  simp [readString_escape, skipBlank, read, later]

/-- Whether the text of a member's value is read as that of another member of the same name. -/
def MemberReadsAs (dialect : Dialect) (depth : Nat) (member other : String × Json) : Prop :=
  member.1 = other.1 ∧ ReadsAs dialect depth member.2 other.2

/-- Members are read one by one up to the closing brace. -/
theorem readMembers_memberChars {members others : Members}
    (each : List.Forall₂ (MemberReadsAs dialect depth) members others) (some : members ≠ [])
    (enough : 2 * (memberChars members).length + 1 ≤ budget) :
    readMembers dialect budget depth (memberChars members ++ '}' :: rest) = Option.some (others, rest) := by
  induction each generalizing budget with
  | nil => exact absurd rfl some
  | @cons member other members others head each inductionHypothesis =>
      obtain ⟨name, value⟩ := member
      obtain ⟨otherName, other⟩ := other
      obtain ⟨rfl, first⟩ := head
      dsimp only at first
      obtain ⟨less, rfl⟩ : ∃ less, budget = less + 1 := ⟨budget - 1, by omega⟩
      cases members with
      | nil =>
          cases each
          have closes : Follows ('}' :: rest) := by simp [Follows]
          have lengths : (memberChars [(name, value)]).length = (quote name).length + value.chars.length + 1 := by
            simp [memberChars]
            omega
          rw [memberChars, List.append_assoc, List.cons_append]
          exact readMembers_last (first.read (by omega) closes)
      | cons next members =>
          have comma : Follows (',' :: (memberChars (next :: members) ++ '}' :: rest)) := by simp [Follows]
          have lengths : (memberChars ((name, value) :: next :: members)).length =
              (quote name).length + value.chars.length + (memberChars (next :: members)).length + 2 := by
            simp [memberChars]
            omega
          have later := inductionHypothesis (List.cons_ne_nil next members)
            (show 2 * (memberChars (next :: members)).length + 1 ≤ less by omega)
          rw [memberChars, List.append_assoc, List.cons_append, List.append_assoc, List.cons_append]
          exact readMembers_more (first.read (by omega) comma) later

end Readers

/-- A number starts with a sign or a digit. -/
theorem Number.chars_head (value : Number) :
    ∃ char tail, value.chars = char :: tail ∧ (char = '-' ∨ char.isDigit = true) := by
  obtain ⟨read, taken⟩ := @Number.exists_read .stored rfl value
  exact readNumber_head taken

/-- The text of a value starts with a character that is neither blank nor a closing bracket. -/
theorem chars_head (value : Json) :
    ∃ char tail, value.chars = char :: tail ∧ char ≠ ']' ∧ ∀ rest, skipBlank (char :: rest) = char :: rest := by
  have plain : ∀ {char : Char}, ¬ (char = ' ' ∨ char = '\n' ∨ char = '\t' ∨ char = '\r') →
      ∀ rest, skipBlank (char :: rest) = char :: rest := by
    intro char visible rest
    rw [skipBlank, if_neg visible]
  cases value with
  | null => exact ⟨'n', _, rfl, by decide, plain (by decide)⟩
  | bool value =>
      cases value with
      | true => exact ⟨'t', _, rfl, by decide, plain (by decide)⟩
      | false => exact ⟨'f', _, rfl, by decide, plain (by decide)⟩
  | number value =>
      obtain ⟨char, tail, written, starts⟩ := value.chars_head
      refine ⟨char, tail, written, ?_, plain ?_⟩
      · rintro rfl
        revert starts
        decide
      · rintro (rfl | rfl | rfl | rfl) <;> revert starts <;> decide
  | string text => exact ⟨'"', _, rfl, by decide, plain (by decide)⟩
  | array items => exact ⟨'[', _, rfl, by decide, plain (by decide)⟩
  | object members => exact ⟨'{', _, rfl, by decide, plain (by decide)⟩

theorem itemChars_head (item : Json) (others : List Json) :
    ∃ char tail, itemChars (item :: others) = char :: tail ∧ char ≠ ']' ∧
      ∀ rest, skipBlank (char :: rest) = char :: rest := by
  obtain ⟨char, tail, written, noBracket, visible⟩ := item.chars_head
  cases others with
  | nil => exact ⟨char, tail, written, noBracket, visible⟩
  | cons next others => exact ⟨char, _, by rw [itemChars, written, List.cons_append], noBracket, visible⟩

namespace ReadsAs

variable {dialect : Dialect} {depth : Nat}

theorem null : ReadsAs dialect depth .null .null := by
  constructor
  rintro (_ | budget) rest enough -
  · cases enough
  · rfl

theorem bool (value : Bool) : ReadsAs dialect depth (.bool value) (.bool value) := by
  constructor
  rintro (_ | budget) rest enough -
  · cases value <;> cases enough
  · cases value <;> rfl

theorem number {value other : Number} (read : readNumber dialect value.chars = some (other, [])) :
    ReadsAs dialect depth (.number value) (.number other) := by
  constructor
  intro budget rest enough follows
  obtain ⟨char, tail, written, -⟩ := value.chars_head
  have some : 0 < budget := by
    rw [chars, written, List.length_cons] at enough
    omega
  obtain ⟨less, rfl⟩ : ∃ less, budget = less + 1 := ⟨budget - 1, by omega⟩
  have alone := readNumber_append follows dialect value.chars
  rw [read] at alone
  exact readValue_number alone

theorem string (text : String) : ReadsAs dialect depth (.string text) (.string text) := by
  constructor
  rintro (_ | budget) rest enough -
  · cases enough
  · simp only [chars, quote_append, readValue, skipBlank]
    simp [readString_escape]

theorem array {items others : List Json} (each : List.Forall₂ (ReadsAs dialect depth) items others) :
    ReadsAs dialect (depth + 1) (.array items) (.array others) := by
  constructor
  intro budget rest enough _
  rw [chars, List.cons_append, List.cons_append, List.append_assoc, List.singleton_append]
  simp only [chars, List.length_cons, List.length_append, List.cons_append] at enough
  obtain ⟨less, rfl⟩ : ∃ less, budget = less + 1 := ⟨budget - 1, by omega⟩
  cases items with
  | nil =>
      cases each
      simp [itemChars, readValue, skipBlank]
  | cons item items =>
      obtain ⟨char, tail, written, noBracket, visible⟩ := itemChars_head item items
      have read := @readItems_itemChars _ less _ rest _ _ each (List.cons_ne_nil item items) (by omega)
      rw [written, List.cons_append] at read ⊢
      exact readValue_array rfl (visible _) noBracket read

theorem object {members others : Members} (each : List.Forall₂ (MemberReadsAs dialect depth) members others) :
    ReadsAs dialect (depth + 1) (.object members) (.object others) := by
  constructor
  intro budget rest enough _
  rw [chars, List.cons_append, List.cons_append, List.append_assoc, List.singleton_append]
  simp only [chars, List.length_cons, List.length_append, List.cons_append] at enough
  obtain ⟨less, rfl⟩ : ∃ less, budget = less + 1 := ⟨budget - 1, by omega⟩
  cases members with
  | nil =>
      cases each
      simp [memberChars, readValue, skipBlank]
  | cons member members =>
      have read := @readMembers_memberChars _ less _ rest _ _ each (List.cons_ne_nil member members) (by omega)
      have quoted : ∃ tail, memberChars (member :: members) ++ '}' :: rest = '"' :: tail := by
        cases members with
        | nil => exact ⟨_, by rw [memberChars, List.append_assoc, quote_append]⟩
        | cons next members => exact ⟨_, by rw [memberChars, List.append_assoc, quote_append]⟩
      obtain ⟨tail, written⟩ := quoted
      rw [written] at read ⊢
      exact readValue_object read

/-- What is read wherever a value may stand is read from a text of its own. -/
theorem readAs_render {value other : Json} (reads : ReadsAs dialect dialect.depth value other) :
    readAs dialect value.render = some other := by
  have read : readValue dialect (2 * value.chars.length + 2) dialect.depth (value.chars ++ []) =
      some (other, []) := reads.read (by omega) (by simp [Follows])
  rw [List.append_nil] at read
  simp [readAs, render, String.toList_ofList, read, skipBlank]

end ReadsAs

/-- What a record can hold is read back wherever a value may stand. -/
theorem Recordable.readsAs {depth : Nat} {value : Json} (recordable : Recordable depth value) :
    ReadsAs .records depth value value := by
  induction recordable with
  | null => exact .null
  | bool value => exact .bool value
  | integer low high => exact .number (Number.readsBack_integer low high)
  | real back => exact .number back
  | string text => exact .string text
  | array each inductionHypothesis => exact .array (List.forall₂_same.2 inductionHypothesis)
  | object once each inductionHypothesis =>
      exact .object (List.forall₂_same.2 fun member among => ⟨rfl, inductionHypothesis member among⟩)

/-- The text of what a record can hold is read as that value. -/
theorem readAs_render {value : Json} (recordable : Recordable Dialect.records.depth value) :
    readAs .records value.render = some value :=
  recordable.readsAs.readAs_render

/-! ### Names -/

theorem dedupItems_of_settled {items : List Json} (settled : ∀ item ∈ items, item.dedup = item) :
    dedupItems items = items := by
  induction items with
  | nil => rfl
  | cons item others inductionHypothesis =>
      rw [dedupItems, settled item List.mem_cons_self,
        inductionHypothesis fun other among => settled other (List.mem_cons_of_mem _ among)]

theorem dedupMembers_of_settled {members : Members}
    (settled : ∀ member ∈ members, member.2.dedup = member.2) : dedupMembers members = members := by
  induction members with
  | nil => rfl
  | cons member others inductionHypothesis =>
      rw [dedupMembers, settled member List.mem_cons_self,
        inductionHypothesis fun other among => settled other (List.mem_cons_of_mem _ among)]

/-- What a record can hold has its names settled. -/
theorem Recordable.dedup_eq {depth : Nat} {value : Json} (recordable : Recordable depth value) :
    value.dedup = value := by
  induction recordable with
  | array each inductionHypothesis => rw [dedup, dedupItems_of_settled inductionHypothesis]
  | object once each inductionHypothesis =>
      rw [dedup, dedupMembers_of_settled inductionHypothesis, Members.dedup_of_nodup once]
  | _ => rfl

/-- The text of what a record can hold is read as that value, names settled. -/
theorem read_render {value : Json} (recordable : Recordable Dialect.records.depth value) :
    read value.render = some value := by
  rw [read, readRepeated, readAs_render recordable, Option.map_some, recordable.dedup_eq]

end HostPruning.Json
