import HostPruning.Json.Reader

/-!
# Reading in a wider dialect

The database reads stored facts in a dialect that puts up with more than the dialect of
records. Where both read a text they read the same value: `readAs_widen` carries a value from
a dialect to any that allows as much nesting and is no stricter. The three readers call each
other with one step less of the budget, so the induction on the budget is over all of them at
once.
-/

namespace HostPruning.Json

/-- One dialect puts up with whatever another does. -/
structure Dialect.Within (narrow wide : Dialect) : Prop where
  depth : narrow.depth ≤ wide.depth
  lenient : narrow.strict = false → wide.strict = false

theorem records_within_stored : Dialect.records.Within Dialect.stored where
  depth := by decide
  lenient := by decide

variable {narrow wide : Dialect}

theorem joinPieces_widen (within : narrow.Within wide) {pieces : List Piece} {chars : List Char}
    (joined : joinPieces narrow pieces = some chars) : joinPieces wide pieces = some chars := by
  fun_induction joinPieces narrow pieces generalizing chars with
  | case1 => exact joined
  | case2 char rest inductionHypothesis =>
      obtain ⟨later, joinedLater, rfl⟩ := Option.map_eq_some_iff.1 joined
      rw [joinPieces, inductionHypothesis joinedLater, Option.map_some]
  | case3 first second rest pair inductionHypothesis =>
      obtain ⟨later, joinedLater, rfl⟩ := Option.map_eq_some_iff.1 joined
      rw [joinPieces, if_pos pair, inductionHypothesis joinedLater, Option.map_some]
  | case4 => cases joined
  | case5 first second rest noPair lone notStrict inductionHypothesis =>
      obtain ⟨later, joinedLater, rfl⟩ := Option.map_eq_some_iff.1 joined
      have lenient : wide.strict = false := within.lenient (by simpa using notStrict)
      rw [joinPieces, if_neg noPair, if_pos lone, lenient, inductionHypothesis joinedLater]
      rfl
  | case6 first second rest noPair notLone inductionHypothesis =>
      obtain ⟨later, joinedLater, rfl⟩ := Option.map_eq_some_iff.1 joined
      rw [joinPieces, if_neg noPair, if_neg notLone, inductionHypothesis joinedLater, Option.map_some]
  | case7 => cases joined
  | case8 code rest noNext lone notStrict inductionHypothesis =>
      obtain ⟨later, joinedLater, rfl⟩ := Option.map_eq_some_iff.1 joined
      have lenient : wide.strict = false := within.lenient (by simpa using notStrict)
      rw [joinPieces, if_pos lone, lenient, inductionHypothesis joinedLater]
      · rfl
      · exact noNext
  | case9 code rest noNext notLone inductionHypothesis =>
      obtain ⟨later, joinedLater, rfl⟩ := Option.map_eq_some_iff.1 joined
      rw [joinPieces, if_neg notLone, inductionHypothesis joinedLater, Option.map_some]
      exact noNext

theorem readString_widen (within : narrow.Within wide) {input : List Char} {result : String × List Char}
    (read : readString narrow input = some result) : readString wide input = some result := by
  unfold readString at read ⊢
  cases pieces : readPieces input with
  | none => simp [pieces] at read
  | some found =>
      cases joined : joinPieces narrow found.1 with
      | none => simp [pieces, joined] at read
      | some chars => simpa [pieces, joined, joinPieces_widen within joined] using read

theorem readNumber_widen (within : narrow.Within wide) {input : List Char} {result : Number × List Char}
    (read : readNumber narrow input = some result) : readNumber wide input = some result := by
  unfold readNumber at read ⊢
  cases parts : readNumberParts input with
  | none => simp [parts] at read
  | some found =>
      cases number : found.1.number? with
      | some value => simpa [parts, number] using read
      | none =>
          cases strict : narrow.strict with
          | true => simp [parts, number, strict] at read
          | false => simpa [parts, number, strict, within.lenient strict] using read

/-- What is read with some budget in a dialect and below some depth is read in a wider dialect
below any greater depth. -/
structure Widens (narrow wide : Dialect) (budget : Nat) : Prop where
  value : ∀ {depth deeper input result}, depth ≤ deeper →
    readValue narrow budget depth input = some result → readValue wide budget deeper input = some result
  items : ∀ {depth deeper input result}, depth ≤ deeper →
    readItems narrow budget depth input = some result → readItems wide budget deeper input = some result
  members : ∀ {depth deeper input result}, depth ≤ deeper →
    readMembers narrow budget depth input = some result →
      readMembers wide budget deeper input = some result

namespace Widens

variable {budget depth deeper : Nat} {input : List Char}

theorem readValue_succ (within : narrow.Within wide) (widens : Widens narrow wide budget)
    {result : Json × List Char} (roomier : depth ≤ deeper)
    (read : readValue narrow (budget + 1) depth input = some result) :
    readValue wide (budget + 1) deeper input = some result := by
  have below : ∀ {less}, depth = less + 1 → ∃ lessDeep, deeper = lessDeep + 1 ∧ less ≤ lessDeep :=
    fun opened => ⟨deeper - 1, by omega, by omega⟩
  unfold readValue at read ⊢
  generalize skipBlank input = chars at read ⊢
  split at read
  case h_1 =>
    obtain ⟨text, readText, rfl⟩ := Option.map_eq_some_iff.1 read
    simp only [readString_widen within readText, Option.map_some]
  case h_2 =>
    cases depth with
    | zero => cases read
    | succ depth =>
        obtain ⟨lessDeep, rfl, stillRoomier⟩ := below rfl
        dsimp only at read ⊢
        split at read
        · exact read
        · obtain ⟨items, readInside, rfl⟩ := Option.map_eq_some_iff.1 read
          simp only [widens.items stillRoomier readInside, Option.map_some]
  case h_3 =>
    cases depth with
    | zero => cases read
    | succ depth =>
        obtain ⟨lessDeep, rfl, stillRoomier⟩ := below rfl
        dsimp only at read ⊢
        split at read
        · exact read
        · obtain ⟨members, readInside, rfl⟩ := Option.map_eq_some_iff.1 read
          simp only [widens.members stillRoomier readInside, Option.map_some]
  case h_4 => exact read
  case h_5 => exact read
  case h_6 => exact read
  case h_7 =>
    obtain ⟨number, readDigits, rfl⟩ := Option.map_eq_some_iff.1 read
    simp only [readNumber_widen within readDigits, Option.map_some]

theorem readItems_succ (widens : Widens narrow wide budget) {result : List Json × List Char}
    (roomier : depth ≤ deeper) (read : readItems narrow (budget + 1) depth input = some result) :
    readItems wide (budget + 1) deeper input = some result := by
  unfold readItems at read ⊢
  cases first : readValue narrow budget depth input with
  | none => simp [first] at read
  | some found =>
      simp only [first, widens.value roomier first] at read ⊢
      generalize skipBlank found.2 = chars at read ⊢
      split at read
      · exact read
      · obtain ⟨items, readLater, rfl⟩ := Option.map_eq_some_iff.1 read
        simp only [widens.items roomier readLater, Option.map_some]
      · cases read

theorem readMembers_succ (within : narrow.Within wide) (widens : Widens narrow wide budget)
    {result : List (String × Json) × List Char} (roomier : depth ≤ deeper)
    (read : readMembers narrow (budget + 1) depth input = some result) :
    readMembers wide (budget + 1) deeper input = some result := by
  unfold readMembers at read ⊢
  generalize skipBlank input = chars at read ⊢
  split at read
  case h_2 => cases read
  case h_1 rest =>
    cases name : readString narrow rest with
    | none => simp [name] at read
    | some found =>
        simp only [name, readString_widen within name] at read ⊢
        generalize skipBlank found.2 = afterName at read ⊢
        split at read
        case h_2 => cases read
        case h_1 ahead =>
          cases value : readValue narrow budget depth ahead with
          | none => simp [value] at read
          | some stored =>
              simp only [value, widens.value roomier value] at read ⊢
              generalize skipBlank stored.2 = afterValue at read ⊢
              split at read
              · exact read
              · obtain ⟨members, readLater, rfl⟩ := Option.map_eq_some_iff.1 read
                simp only [widens.members roomier readLater, Option.map_some]
              · cases read

/-- A wider dialect reads at least as much, with the same budget. -/
theorem of_within (within : narrow.Within wide) (budget : Nat) : Widens narrow wide budget := by
  induction budget with
  | zero => constructor <;> simp [readValue, readItems, readMembers]
  | succ budget inductionHypothesis =>
      exact ⟨inductionHypothesis.readValue_succ within, inductionHypothesis.readItems_succ,
        inductionHypothesis.readMembers_succ within⟩

end Widens

/-- A text is read in a wider dialect as the same value. -/
theorem readAs_widen (within : narrow.Within wide) {text : String} {value : Json}
    (read : readAs narrow text = some value) : readAs wide text = some value := by
  unfold readAs at read ⊢
  dsimp only at read ⊢
  cases first : readValue narrow (2 * text.toList.length + 2) narrow.depth text.toList with
  | none => simp [first] at read
  | some found =>
      rw [first] at read
      rw [(Widens.of_within within _).value within.depth first]
      exact read

end HostPruning.Json
