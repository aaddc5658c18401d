import HostPruning.Proofs.Compiling

/-!
# The wording of a filter's condition

A condition is handed over as a text with question marks and a list of values, and the k-th question
mark gets the k-th value. `filledIn` is that reading; it fails when there are too many marks or too
many values. `statement` says what is to be read: the comparisons of a filter with every path, text
and number written at the place where it belongs.

`reads_statement` puts the two together by induction over filters. Besides question marks a wording
has only what the filter's shape puts there, so no key and no value can become part of it;
`compile_injection_free` is the whole of it.
-/

namespace HostPruning

namespace Query

open FactFilter (Leaf leavesUnder leavesOf)

/-! ### Filling in -/

/-- A character of a text, or a value in the place of a question mark. -/
inductive Piece where
  | char (char : Char)
  | value (value : Parameter)
deriving DecidableEq

/-- A text with values in the places of its question marks, from left to right; none when marks and
values differ in number. -/
def filledIn : List Char → List Parameter → Option (List Piece)
  | [], [] => some []
  | [], _ :: _ => none
  | '?' :: _, [] => none
  | '?' :: rest, value :: later => (filledIn rest later).map (.value value :: ·)
  | char :: rest, values => (filledIn rest values).map (.char char :: ·)

/-- The pieces of a text without values. -/
def words (text : String) : List Piece := text.toList.map .char

/-- Whether a text with some values reads as some pieces. -/
def Reads (text : String) (values : List Parameter) (pieces : List Piece) : Prop :=
  filledIn text.toList values = some pieces

theorem filledIn_mark (rest : List Char) (value : Parameter) (later : List Parameter) :
    filledIn ('?' :: rest) (value :: later) = (filledIn rest later).map (.value value :: ·) := rfl

theorem filledIn_char {char : Char} (unmarked : char ≠ '?') (rest : List Char)
    (values : List Parameter) :
    filledIn (char :: rest) values = (filledIn rest values).map (.char char :: ·) := by
  cases values <;> simp [filledIn, unmarked]

/-- Every value has its question mark. -/
theorem count_of_filledIn {chars : List Char} {values : List Parameter} {pieces : List Piece}
    (filled : filledIn chars values = some pieces) : chars.count '?' = values.length := by
  induction chars generalizing values pieces with
  | nil =>
      cases values with
      | nil => rfl
      | cons value later => cases filled
  | cons char rest inductionHypothesis =>
      by_cases marked : char = '?'
      · subst marked
        cases values with
        | nil => cases filled
        | cons value later =>
            rw [filledIn_mark] at filled
            obtain ⟨others, othersFilled, -⟩ := Option.map_eq_some_iff.1 filled
            rw [List.count_cons_self, inductionHypothesis othersFilled, List.length_cons]
      · rw [filledIn_char marked] at filled
        obtain ⟨others, othersFilled, -⟩ := Option.map_eq_some_iff.1 filled
        rw [List.count_cons_of_ne marked, inductionHypothesis othersFilled]

/-- Texts one after the other read as their pieces one after the other. -/
theorem filledIn_append {first second : List Char} {firstValues secondValues : List Parameter}
    {firstPieces secondPieces : List Piece} (filled : filledIn first firstValues = some firstPieces)
    (further : filledIn second secondValues = some secondPieces) :
    filledIn (first ++ second) (firstValues ++ secondValues) = some (firstPieces ++ secondPieces) := by
  induction first generalizing firstValues firstPieces with
  | nil =>
      cases firstValues with
      | nil =>
          cases filled
          exact further
      | cons value later => cases filled
  | cons char rest inductionHypothesis =>
      by_cases marked : char = '?'
      · subst marked
        cases firstValues with
        | nil => cases filled
        | cons value later =>
            rw [filledIn_mark] at filled
            obtain ⟨others, othersFilled, rfl⟩ := Option.map_eq_some_iff.1 filled
            rw [List.cons_append, List.cons_append, filledIn_mark, inductionHypothesis othersFilled]
            rfl
      · rw [filledIn_char marked] at filled
        obtain ⟨others, othersFilled, rfl⟩ := Option.map_eq_some_iff.1 filled
        rw [List.cons_append, filledIn_char marked, inductionHypothesis othersFilled]
        rfl

theorem Reads.append {first second : String} {firstValues secondValues : List Parameter}
    {firstPieces secondPieces : List Piece} (filled : Reads first firstValues firstPieces)
    (further : Reads second secondValues secondPieces) :
    Reads (first ++ second) (firstValues ++ secondValues) (firstPieces ++ secondPieces) := by
  rw [Reads, String.toList_append]
  exact filledIn_append filled further

/-- A text without question marks is read as it is. -/
theorem reads_words (text : String) (unmarked : '?' ∉ text.toList) : Reads text [] (words text) := by
  unfold Reads words
  generalize text.toList = chars at unmarked
  induction chars with
  | nil => rfl
  | cons char rest inductionHypothesis =>
      obtain ⟨here, later⟩ := not_or.1 (mt List.mem_cons.2 unmarked)
      rw [filledIn_char (Ne.symm here), inductionHypothesis later]
      rfl

/-- A text between two without question marks. -/
theorem Reads.between {text : String} {values : List Parameter} {pieces : List Piece}
    (filled : Reads text values pieces) (before after : String)
    (unmarkedBefore : '?' ∉ before.toList) (unmarkedAfter : '?' ∉ after.toList) :
    Reads (before ++ text ++ after) values (words before ++ pieces ++ words after) := by
  have whole :=
    ((reads_words before unmarkedBefore).append filled).append (reads_words after unmarkedAfter)
  simpa using whole

/-- A question mark more and a value more. -/
theorem Reads.mark {text : String} {values : List Parameter} {pieces : List Piece}
    (filled : Reads text values pieces) (value : Parameter) :
    Reads (text ++ "?") (values ++ [value]) (pieces ++ [.value value]) :=
  filled.append rfl

/-- A text more that has no question mark. -/
theorem Reads.word {text : String} {values : List Parameter} {pieces : List Piece}
    (filled : Reads text values pieces) (after : String) (unmarked : '?' ∉ after.toList) :
    Reads (text ++ after) values (pieces ++ words after) := by
  simpa using filled.append (reads_words after unmarked)

/-! ### What is to be read -/

/-- Statements between brackets with a connective between them. -/
def connected (connective : String) (parts : List (List Piece)) : List Piece :=
  words "(" ++ List.intercalate (words connective) parts ++ words ")"

/-- That the fact at a path has a type. -/
def ofType (path : Parameter) (type : String) : List Piece :=
  words "json_type(canonical_facts, " ++ [.value path] ++ words type

/-- That a listed value is one of some texts. -/
def membership (texts : List String) : List Piece :=
  if texts.isEmpty then words "0"
  else words "value IN (" ++
    List.intercalate (words ", ") (texts.map fun text => [.value (.text text)]) ++ words ")"

/-- That the fact at a path contains a value. -/
def holding (path : Parameter) : FactValue → List Piece
  | .single text =>
      connected " AND "
        [ofType path ") = 'text'",
         words "json_extract(canonical_facts, " ++ [.value path] ++ words ") = " ++
           [.value (.text text)]]
  | .many texts =>
      connected " AND "
        [ofType path ") = 'array'",
         words "(SELECT COUNT(DISTINCT value) FROM json_each(canonical_facts, " ++ [.value path] ++
           words ") WHERE type = 'text' AND " ++ membership texts.members ++ words ") = " ++
           [.value (.integer texts.members.length)]]

/-- The path of a key, as a value. -/
def place (key : String) : Parameter := .text (Condition.path key)

mutual

/-- A filter as a statement about stored facts, with every value at the place where it belongs. -/
def statement : FactFilter → List Piece
  | .contains key value => holding (place key) value
  | .conflicts key value =>
      connected " AND "
        [ofType (place key) ") IS NOT NULL", words "NOT " ++ holding (place key) value]
  | .anyOf parts => if parts.isEmpty then words "0" else connected " OR " (statements parts)
  | .noneOf parts =>
      words "(NOT " ++
        (if parts.isEmpty then words "0" else connected " OR " (statements parts)) ++ words ")"
  | .allOf parts => if parts.isEmpty then words "1" else connected " AND " (statements parts)

/-- Several filters as statements. -/
def statements : List FactFilter → List (List Piece)
  | [] => []
  | part :: rest => statement part :: statements rest

end

/-! ### What is read -/

/-- Texts with something between them read as what they read as, with the same between. -/
theorem reads_join {Item : Type} (separator : String) (unmarked : '?' ∉ separator.toList)
    (text : Item → String) (values : Item → List Parameter) (pieces : Item → List Piece)
    (items : List Item) (each : ∀ item ∈ items, Reads (text item) (values item) (pieces item)) :
    Reads (Text.join separator (items.map text)) (items.flatMap values)
      (List.intercalate (words separator) (items.map pieces)) := by
  induction items with
  | nil => rfl
  | cons item rest inductionHypothesis =>
      have first := each item List.mem_cons_self
      have others := inductionHypothesis fun other later => each other (List.mem_cons_of_mem _ later)
      cases rest with
      | nil => simpa [Text.join] using first
      | cons next further =>
          have between := (first.append (reads_words separator unmarked)).append others
          simpa [Text.join, List.intercalate_cons_cons] using between

theorem joined_eq (connective : String) (parts : List Condition) :
    Condition.joined connective parts = Text.join connective (parts.map Condition.text) := by
  induction parts with
  | nil => simp [Condition.joined, Text.join]
  | cons part rest inductionHypothesis =>
      cases rest with
      | nil => simp [Condition.joined, Text.join]
      | cons next further =>
          rw [Condition.joined, inductionHypothesis]
          rfl

/-- A list's question marks read as its texts. -/
theorem reads_membership (texts : List String) :
    Reads (if texts.length = 0 then "0" else "value IN (" ++ Condition.marks texts.length ++ ")")
      (texts.map .text) (membership texts) := by
  cases texts with
  | nil => exact reads_words "0" (by decide)
  | cons text rest =>
      have each := reads_join ", " (by decide) (fun _ : String => "?")
        (fun text => [.text text]) (fun text => [.value (.text text)]) (text :: rest) fun _ _ => rfl
      rw [List.map_const', ← List.map_eq_flatMap] at each
      exact each.between "value IN (" ")" (by decide) (by decide)

/-- What the conditions on the type of a fact have in common. -/
theorem reads_ofType (path : Parameter) {type : String} (unmarked : '?' ∉ type.toList) :
    Reads ("json_type(canonical_facts, " ++ "?" ++ type) [path] (ofType path type) :=
  ((reads_words "json_type(canonical_facts, " (by decide)).mark path).word type unmarked

theorem reads_isText (path : Parameter) :
    Reads Condition.isText.text [path] (ofType path ") = 'text'") := by
  have wording : Condition.isText.text =
      "json_type(canonical_facts, " ++ "?" ++ ") = 'text'" := by rfl
  rw [wording]
  exact reads_ofType path (by decide)

theorem reads_isList (path : Parameter) :
    Reads Condition.isList.text [path] (ofType path ") = 'array'") := by
  have wording : Condition.isList.text =
      "json_type(canonical_facts, " ++ "?" ++ ") = 'array'" := by rfl
  rw [wording]
  exact reads_ofType path (by decide)

theorem reads_isPresent (path : Parameter) :
    Reads Condition.isPresent.text [path] (ofType path ") IS NOT NULL") := by
  have wording : Condition.isPresent.text =
      "json_type(canonical_facts, " ++ "?" ++ ") IS NOT NULL" := by rfl
  rw [wording]
  exact reads_ofType path (by decide)

theorem reads_equalsText (path expected : Parameter) :
    Reads Condition.equalsText.text [path, expected]
      (words "json_extract(canonical_facts, " ++ [.value path] ++ words ") = " ++
        [.value expected]) := by
  have wording : Condition.equalsText.text =
      "json_extract(canonical_facts, " ++ "?" ++ ") = " ++ "?" := by rfl
  rw [wording]
  have extracted := (reads_words "json_extract(canonical_facts, " (by decide)).mark path
  exact (extracted.word ") = " (by decide)).mark expected

theorem reads_countsTexts (path : Parameter) (texts : List String) (expected : Parameter) :
    Reads (Condition.countsTexts texts.length).text (path :: (texts.map .text ++ [expected]))
      (words "(SELECT COUNT(DISTINCT value) FROM json_each(canonical_facts, " ++ [.value path] ++
        words ") WHERE type = 'text' AND " ++ membership texts ++ words ") = " ++
        [.value expected]) := by
  have opening : "(SELECT COUNT(DISTINCT value) FROM json_each(canonical_facts, ?) " ++
      "WHERE type = 'text' AND " =
      "(SELECT COUNT(DISTINCT value) FROM json_each(canonical_facts, " ++ "?" ++
        ") WHERE type = 'text' AND " := by rfl
  have closing : ") = ?" = ") = " ++ "?" := by rfl
  have wording : (Condition.countsTexts texts.length).text =
      ("(SELECT COUNT(DISTINCT value) FROM json_each(canonical_facts, ?) " ++
        "WHERE type = 'text' AND ") ++
      (if texts.length = 0 then "0" else "value IN (" ++ Condition.marks texts.length ++ ")") ++
      ") = ?" := by rfl
  rw [wording, opening, closing, ← String.append_assoc]
  have listed := ((reads_words "(SELECT COUNT(DISTINCT value) FROM json_each(canonical_facts, "
    (by decide)).mark path).word ") WHERE type = 'text' AND " (by decide)
  have counted := ((listed.append (reads_membership texts)).word ") = " (by decide)).mark expected
  simpa using counted

/-- Two conditions that hold together. -/
theorem Reads.both {first second : Condition} {firstValues secondValues : List Parameter}
    {firstPieces secondPieces : List Piece} (filled : Reads first.text firstValues firstPieces)
    (further : Reads second.text secondValues secondPieces) :
    Reads (Condition.all [first, second]).text (firstValues ++ secondValues)
      (connected " AND " [firstPieces, secondPieces]) := by
  have wording : (Condition.all [first, second]).text =
      "(" ++ (first.text ++ " AND " ++ second.text) ++ ")" := rfl
  have together :=
    ((filled.word " AND " (by decide)).append further).between "(" ")" (by decide) (by decide)
  rw [wording]
  simpa only [connected, List.intercalate_cons_cons, List.intercalate_singleton] using together

/-- A comparison with a text or a list reads as the statement that it is held. -/
theorem reads_comparison (path : Parameter) (value : FactValue) :
    Reads (Shape.comparison (listLength value)).text (containsParameters path value)
      (holding path value) := by
  cases value with
  | single text => exact (reads_isText path).both (reads_equalsText path (.text text))
  | many texts =>
      exact (reads_isList path).both
        (reads_countsTexts path texts.members (.integer texts.members.length))

theorem leafValues_contains (key : String) (value : FactValue) (negated : Bool) :
    leafValues ⟨key, value, false, negated⟩ = containsParameters (place key) value := by
  cases value <;> rfl

theorem leafValues_conflicts (key : String) (value : FactValue) (negated : Bool) :
    leafValues ⟨key, value, true, negated⟩ = place key :: containsParameters (place key) value := by
  cases value <;> rfl

theorem conditions_shapesOf (parts : List FactFilter) :
    Shape.conditions (shapesOf parts) = parts.map fun part => (shapeOf part).condition := by
  induction parts with
  | nil => rfl
  | cons part rest inductionHypothesis =>
      rw [shapesOf, Shape.conditions, inductionHypothesis, List.map_cons]

theorem leavesOf_eq_flatMap (negated : Bool) (parts : List FactFilter) :
    leavesOf negated parts = parts.flatMap fun part => part.leavesUnder negated := by
  induction parts with
  | nil => rfl
  | cons part rest inductionHypothesis => rw [leavesOf, inductionHypothesis, List.flatMap_cons]

theorem statements_eq_map (parts : List FactFilter) : statements parts = parts.map statement := by
  induction parts with
  | nil => rfl
  | cons part rest inductionHypothesis => rw [statements, inductionHypothesis, List.map_cons]

/-- Several filters with a connective between them read as their statements with it between them. -/
theorem reads_connected (connective : String) (unmarked : '?' ∉ connective.toList) {negated : Bool}
    {parts : List FactFilter}
    (each : ∀ part ∈ parts, Reads (shapeOf part).condition.text
      ((part.leavesUnder negated).flatMap leafValues) (statement part)) :
    Reads ("(" ++ Condition.joined connective (Shape.conditions (shapesOf parts)) ++ ")")
      ((leavesOf negated parts).flatMap leafValues) (connected connective (statements parts)) := by
  have between := (reads_join connective unmarked _ _ _ parts each).between "(" ")"
    (by decide) (by decide)
  rw [joined_eq, conditions_shapesOf, leavesOf_eq_flatMap, statements_eq_map, List.map_map,
    List.flatMap_assoc]
  exact between

/-- A filter's condition, with the filter's values in the places of its question marks, reads as the
filter's statement. -/
theorem reads_statement (filter : FactFilter) (negated : Bool) :
    Reads (shapeOf filter).condition.text ((filter.leavesUnder negated).flatMap leafValues)
      (statement filter) := by
  induction filter using FactFilter.partsInduction generalizing negated with
  | contains key value =>
      rw [leavesUnder, List.flatMap_singleton, leafValues_contains]
      exact reads_comparison (place key) value
  | conflicts key value =>
      rw [leavesUnder, List.flatMap_singleton, leafValues_conflicts]
      have lacking : Reads (Condition.not (Shape.comparison (listLength value))).text
          (containsParameters (place key) value) (words "NOT " ++ holding (place key) value) :=
        (reads_words "NOT " (by decide)).append (reads_comparison (place key) value)
      exact (reads_isPresent (place key)).both lacking
  | anyOf parts inductionHypothesis =>
      cases parts with
      | nil => exact reads_words "0" (by decide)
      | cons part rest =>
          exact reads_connected " OR " (by decide) fun part among =>
            inductionHypothesis part among negated
  | noneOf parts inductionHypothesis =>
      cases parts with
      | nil => exact reads_words "(NOT 0)" (by decide)
      | cons part rest =>
          have someOf := reads_connected " OR " (by decide) fun part among =>
            inductionHypothesis part among true
          exact someOf.between "(NOT " ")" (by decide) (by decide)
  | allOf parts inductionHypothesis =>
      cases parts with
      | nil => exact reads_words "1" (by decide)
      | cons part rest =>
          exact reads_connected " AND " (by decide) fun part among =>
            inductionHypothesis part among negated

/-! ### What is bound -/

/-- The keys that a filter compares facts of, from left to right. -/
def keys (filter : FactFilter) : List String := filter.leaves.map Leaf.key

/-- Whether a key is a plain identifier: some letters, digits and underscores. -/
def Identifier (key : String) : Prop :=
  key ≠ "" ∧ ∀ char ∈ key.toList, char.isAlphanum = true ∨ char = '_'

theorem plainKey_iff (key : String) : Condition.plainKey key = true ↔ Identifier key := by
  simp [Condition.plainKey, Condition.plainChar, Identifier, List.all_eq_true]

/-- A clause that says what a filter says, with the filter's values bound to its question marks. -/
structure Bound (filter : FactFilter) (clause : Clause) : Prop where
  /-- There are as many question marks as values. -/
  marked : clause.condition.text.toList.count '?' = clause.parameters.length
  /-- The values are those of the comparisons, from left to right. -/
  called : clause.parameters = filter.leaves.flatMap leafValues
  /-- Every question mark gets the value that its position calls for. -/
  read : Reads clause.condition.text clause.parameters (statement filter)

theorem not_plainKey_iff (key : String) : (!Condition.plainKey key) = true ↔ ¬ Identifier key := by
  rw [← plainKey_iff, Bool.not_eq_true', Bool.not_eq_true]

/-- There is a result when every key is an identifier. -/
theorem ifPlain_eq_ok {Result : Type} {leaves : List Leaf} {result other : Result} :
    ifPlain leaves result = .ok other ↔
      (∀ key ∈ leaves.map Leaf.key, Identifier key) ∧ result = other := by
  unfold ifPlain
  cases unfit : leaves.find? fun leaf => !Condition.plainKey leaf.key with
  | some leaf =>
      have among := List.mem_of_find?_eq_some unfit
      have refused : ¬ Identifier leaf.key := by
        rw [← not_plainKey_iff]
        simpa using List.find?_some unfit
      simp only [reduceCtorEq, List.forall_mem_map, false_iff, not_and]
      exact fun plain => absurd (plain leaf among) refused
  | none =>
      have plain : ∀ leaf ∈ leaves, Identifier leaf.key := by
        simpa [plainKey_iff] using unfit
      simpa [List.forall_mem_map] using fun _ => plain

/-- The leftmost key that is no identifier is refused. -/
theorem ifPlain_eq_error {Result : Type} {leaves : List Leaf} {result : Result}
    {fault : DatabaseFault} :
    ifPlain leaves result = .error fault ↔
      ∃ before key after, leaves.map Leaf.key = before ++ key :: after ∧
        (∀ earlier ∈ before, Identifier earlier) ∧ ¬ Identifier key ∧ fault = .keyNotPlain key := by
  have named : ((leaves.map Leaf.key).find? fun key => !Condition.plainKey key) =
      (leaves.find? fun leaf => !Condition.plainKey leaf.key).map Leaf.key := List.find?_map ..
  have leftmost : ∀ key, ((leaves.map Leaf.key).find? fun key => !Condition.plainKey key) = some key ↔
      ¬ Identifier key ∧ ∃ before after, leaves.map Leaf.key = before ++ key :: after ∧
        ∀ earlier ∈ before, Identifier earlier := by
    intro key
    rw [List.find?_eq_some_iff_append, not_plainKey_iff]
    simp [plainKey_iff]
  have refused : ifPlain leaves result = .error fault ↔
      ∃ key, ((leaves.map Leaf.key).find? fun key => !Condition.plainKey key) = some key ∧
        fault = .keyNotPlain key := by
    rw [named, ifPlain]
    cases leaves.find? fun leaf => !Condition.plainKey leaf.key <;> simp [eq_comm]
  rw [refused]
  constructor
  · rintro ⟨key, found, rfl⟩
    obtain ⟨unfit, before, after, split, fit⟩ := (leftmost key).1 found
    exact ⟨before, key, after, split, fit, unfit, rfl⟩
  · rintro ⟨before, key, after, split, fit, unfit, rfl⟩
    exact ⟨key, (leftmost key).2 ⟨unfit, before, after, split, fit⟩, rfl⟩

/-- What a filter compiles to is bound to the filter's values. -/
theorem bound_of_compile {filter : FactFilter} {clause : Clause}
    (compiled : compile filter = .ok clause) : Bound filter clause := by
  rw [compile_eq filter false] at compiled
  obtain ⟨-, rfl⟩ := ifPlain_eq_ok.1 compiled
  have read := reads_statement filter false
  exact ⟨count_of_filledIn read, rfl, read⟩

/-- Filters of one shape have one wording. -/
theorem text_of_shape {filter other : FactFilter} {clause otherClause : Clause}
    (compiled : compile filter = .ok clause) (otherCompiled : compile other = .ok otherClause)
    (alike : shapeOf filter = shapeOf other) :
    clause.condition.text = otherClause.condition.text := by
  rw [compile_eq _ false] at compiled otherCompiled
  obtain ⟨-, rfl⟩ := ifPlain_eq_ok.1 compiled
  obtain ⟨-, rfl⟩ := ifPlain_eq_ok.1 otherCompiled
  rw [alike]

/-- Compiled filters are free of injections. A filter compiles exactly when all its keys are plain
identifiers, and otherwise the leftmost other key is refused. What it compiles to has as many
question marks as values, each value stands where its question mark calls for it, and the wording
around them is the same for all filters of the shape. -/
theorem compile_injection_free (filter : FactFilter) :
    ((∃ clause, compile filter = .ok clause) ↔ ∀ key ∈ keys filter, Identifier key) ∧
    (∀ fault, compile filter = .error fault ↔
      ∃ before key after, keys filter = before ++ key :: after ∧
        (∀ earlier ∈ before, Identifier earlier) ∧ ¬ Identifier key ∧ fault = .keyNotPlain key) ∧
    (∀ clause, compile filter = .ok clause → Bound filter clause) ∧
    ∀ other clause otherClause, compile filter = .ok clause → compile other = .ok otherClause →
      shapeOf filter = shapeOf other → clause.condition.text = otherClause.condition.text := by
  refine ⟨?_, fun fault => ?_, fun clause => bound_of_compile, fun other clause otherClause =>
    text_of_shape⟩
  · rw [compile_eq filter false]
    constructor
    · rintro ⟨clause, compiled⟩
      exact (ifPlain_eq_ok.1 compiled).1
    · exact fun plain => ⟨_, ifPlain_eq_ok.2 ⟨plain, rfl⟩⟩
  · rw [compile_eq filter false]
    exact ifPlain_eq_error

/-- A filter with a comparison below a negation, for any key and text. -/
def nestedFilter (key text : String) : FactFilter :=
  .anyOf [.conflicts key (.single text), .noneOf [.contains key (.many (TextSet.ofList [text]))]]

/-- Texts that look like conditions are values like others, and keys that do are refused. -/
theorem nested_filters_bound :
    (∃ clause, compile (nestedFilter "insights_id" "' OR 1 = 1") = .ok clause ∧
      Bound (nestedFilter "insights_id" "' OR 1 = 1") clause ∧
      ∀ otherClause, compile (nestedFilter "fqdn" "?") = .ok otherClause →
        clause.condition.text = otherClause.condition.text) ∧
    compile (nestedFilter "fqdn = ?" "a") = .error (.keyNotPlain "fqdn = ?") := by
  obtain ⟨succeeds, -, bound, same⟩ :=
    compile_injection_free (nestedFilter "insights_id" "' OR 1 = 1")
  obtain ⟨-, refuses, -, -⟩ := compile_injection_free (nestedFilter "fqdn = ?" "a")
  have plain : ∀ key ∈ keys (nestedFilter "insights_id" "' OR 1 = 1"), Identifier key := by
    simp only [← plainKey_iff]
    decide
  have unfit : ¬ Identifier "fqdn = ?" := by
    rw [← plainKey_iff]
    decide
  obtain ⟨clause, compiled⟩ := succeeds.2 plain
  refine ⟨⟨clause, compiled, bound clause compiled, fun otherClause otherCompiled => ?_⟩, ?_⟩
  · exact same _ clause otherClause compiled otherCompiled rfl
  · exact (refuses _).2 ⟨[], "fqdn = ?", ["fqdn = ?"], rfl, fun _ none => absurd none List.not_mem_nil,
      unfit, rfl⟩

end Query

end HostPruning
