import Mathlib.Data.List.Perm.Subperm
import HostPruning.Database.Store
import HostPruning.Proofs.Compiling
import HostPruning.Proofs.Loading

/-!
# Selection by a condition and acceptance by a filter

`compile_truth` says that the condition of a filter has the filter's three-valued truth and uses
exactly the values it was compiled with, so a row that is selected satisfies the filter
(`accepts_of_selects`), and one that satisfies a grounded filter is selected
(`selects_of_accepts`). Only a fact that is missing under a negation keeps a row from being
selected that the filter accepts.

Stored facts are loaded with the last value of a repeated name, while a condition sees the
first. `selects_iff_accepts` is therefore about facts that name each key once.
-/

namespace HostPruning

namespace Query

open Condition
open FactFilter (membersOf containment)

variable {stored : Json}

/-! ### Conditions on one fact -/

/-- A path leads to the key it was made from. -/
@[simp]
theorem keyOf?_path (key : String) : keyOf? (path key) = some key := by
  simp [keyOf?, path]

/-- At the path of a key stands the fact of that key. -/
@[simp]
theorem factAt_path (stored : Json) (key : String) :
    factAt stored (.text (path key)) = (membersOf stored).get? key := by
  simp only [factAt, keyOf?_path]
  cases stored with
  | object members => rfl
  | _ => rfl

/-- As many distinct texts of a set are listed as the set has, exactly when all are. -/
theorem distinctTexts_eq_length_iff (items : List Json) (texts : TextSet) :
    distinctTexts items (texts.members.map .text) = texts.members.length ↔
      texts.members.all (FactValue.listed items) = true := by
  have among : ∀ text, text ∈ ((items.filterMap Json.text?).filter fun text =>
      (texts.members.map Parameter.text).contains (.text text)).eraseDups ↔
        FactValue.listed items text = true ∧ text ∈ texts.members := by
    intro text
    simp [FactValue.listed, List.mem_eraseDups]
  have once := nodup_eraseDups ((items.filterMap Json.text?).filter fun text =>
    (texts.members.map Parameter.text).contains (.text text))
  rw [List.all_eq_true, distinctTexts]
  constructor
  · intro sameLength text member
    have within := List.subperm_of_subset once fun text found => ((among text).1 found).2
    have all := within.perm_of_length_le (Nat.le_of_eq sameLength.symm)
    exact ((among text).1 (all.mem_iff.2 member)).1
  · intro all
    refine ((List.perm_ext_iff_of_nodup once texts.nodup).2 fun text => ?_).length_eq
    rw [among]
    exact ⟨And.right, fun member => ⟨all text member, member⟩⟩

/-- Counting distinct texts tells whether all of a set are listed. -/
theorem countsTexts_truth (stored : Json) (place : Parameter) (texts : TextSet)
    (rest : List Parameter) :
    (Condition.countsTexts texts.members.length).truth stored
        (place :: (texts.members.map .text ++ .integer texts.members.length :: rest)) =
      (some (texts.members.all (FactValue.listed (listedAt stored place))), rest) := by
  have given : (texts.members.map Parameter.text).length = texts.members.length := List.length_map _
  simp only [Condition.truth, ← given, List.drop_left, List.take_left]
  simp only [given, Prod.mk.injEq, Option.some.injEq, and_true, Parameter.integer.injEq, Int.natCast_inj]
  rw [Bool.eq_iff_iff, decide_eq_true_iff, distinctTexts_eq_length_iff]

/-- The condition that a fact contains a value, with its values filled in. -/
theorem containsCondition_truth (stored : Json) (key : String) (value : FactValue)
    (rest : List Parameter) :
    (containsCondition value).truth stored (containsParameters (.text (path key)) value ++ rest) =
      (containment value ((membersOf stored).get? key), rest) := by
  cases value with
  | single text =>
      simp only [containsCondition, containsParameters, List.cons_append, List.nil_append,
        Condition.truth, Condition.truthAll, factAt_path, both_true]
      cases (membersOf stored).get? key with
      | none => rfl
      | some fact =>
          cases fact with
          | string actual =>
              simp [equals, containment, FactValue.containedIn, Json.kind, Bool.beq_comm]
          | _ => simp [containment, FactValue.containedIn, Json.kind, both]
  | many texts =>
      have asked : containsParameters (.text (path key)) (.many texts) ++ rest =
          .text (path key) :: .text (path key) ::
            (texts.members.map .text ++ .integer texts.members.length :: rest) := by
        simp [containsParameters]
      rw [asked]
      simp only [containsCondition, Condition.truth, Condition.truthAll, countsTexts_truth, both_true,
        factAt_path, listedAt]
      cases (membersOf stored).get? key with
      | none =>
          -- No list, no listed texts: the count decides unless nothing was asked for.
          cases members : texts.members with
          | nil => simp [containment, members, both]
          | cons first others => simp [containment, members, both, FactValue.listed]
      | some fact =>
          cases fact <;> simp [containment, FactValue.containedIn, Json.kind]

/-! ### Conditions of filters -/

@[simp]
theorem anyCondition_truth (conditions : List Condition) (parameters : List Parameter) :
    (anyCondition conditions).truth stored parameters = truthAny stored conditions parameters := by
  cases conditions with
  | nil => simp [anyCondition, Condition.truth, truthAny]
  | cons first others => rfl

@[simp]
theorem allCondition_truth (conditions : List Condition) (parameters : List Parameter) :
    (allCondition conditions).truth stored parameters = truthAll stored conditions parameters := by
  cases conditions with
  | nil => simp [allCondition, Condition.truth, truthAll]
  | cons first others => rfl

/-- A clause means a filter: filled in with its values its condition has the filter's truth, and
it uses no other values. -/
def Means (stored : Json) (clause : Clause) (filter : FactFilter) : Prop :=
  ∀ rest, clause.condition.truth stored (clause.parameters ++ rest) =
    (filter.truth (membersOf stored), rest)

/-- The conditions of several filters mean their parts, in a disjunction and in a conjunction. -/
theorem compileParts_truth {parts : List FactFilter} {conditions : List Condition}
    {parameters : List Parameter} (compiled : compileParts parts = .ok (conditions, parameters))
    (means : ∀ part ∈ parts, ∀ clause, compile part = .ok clause → Means stored clause part)
    (rest : List Parameter) :
    truthAny stored conditions (parameters ++ rest) =
        (FactFilter.truthAny (membersOf stored) parts, rest) ∧
      truthAll stored conditions (parameters ++ rest) =
        (FactFilter.truthAll (membersOf stored) parts, rest) := by
  induction parts generalizing conditions parameters with
  | nil =>
      cases compiled
      exact ⟨rfl, rfl⟩
  | cons part others inductionHypothesis =>
      unfold compileParts at compiled
      cases first : compile part with
      | error fault => simp [first] at compiled
      | ok clause =>
          cases later : compileParts others with
          | error fault => simp [first, later] at compiled
          | ok compiledOthers =>
              simp only [first, later, Except.ok.injEq, Prod.mk.injEq] at compiled
              obtain ⟨rfl, rfl⟩ := compiled
              obtain ⟨any, all⟩ := inductionHypothesis later
                fun other among => means other (List.mem_cons_of_mem _ among)
              have here := means part List.mem_cons_self clause first (compiledOthers.2 ++ rest)
              simp only [truthAny, truthAll, List.append_assoc, here, any, all, FactFilter.truthAny,
                FactFilter.truthAll, and_self]

/-- A condition on a key looks along the key's path. -/
theorem eq_of_pathOf {key : String} {parameter : Parameter} (found : pathOf key = .ok parameter) :
    parameter = .text (path key) := by
  unfold pathOf at found
  split at found
  · exact (Except.ok.inj found).symm
  · cases found

/-- The clause a filter is compiled to means the filter. -/
theorem compile_truth {filter : FactFilter} {clause : Clause} (compiled : compile filter = .ok clause)
    (stored : Json) : Means stored clause filter := by
  induction filter using FactFilter.partsInduction generalizing clause with
  | contains key value =>
      unfold compile at compiled
      split at compiled
      case h_1 => cases compiled
      case h_2 found =>
        obtain rfl := eq_of_pathOf found
        cases compiled
        exact containsCondition_truth stored key value
  | conflicts key value =>
      unfold compile at compiled
      split at compiled
      case h_1 => cases compiled
      case h_2 found =>
        obtain rfl := eq_of_pathOf found
        cases compiled
        intro rest
        simp only [Condition.truth, truthAll, List.cons_append, factAt_path, containsCondition_truth,
          both_true, FactFilter.truth]
  | anyOf parts inductionHypothesis =>
      unfold compile at compiled
      split at compiled
      case h_1 => cases compiled
      case h_2 conditions parameters found =>
        cases compiled
        intro rest
        rw [anyCondition_truth, FactFilter.truth]
        exact (compileParts_truth found (fun part among _ => inductionHypothesis part among) rest).1
  | noneOf parts inductionHypothesis =>
      unfold compile at compiled
      split at compiled
      case h_1 => cases compiled
      case h_2 conditions parameters found =>
        cases compiled
        intro rest
        have any := (compileParts_truth found (fun part among _ => inductionHypothesis part among) rest).1
        simp only [Condition.truth, truthAll, anyCondition_truth, any, both_true, FactFilter.truth]
  | allOf parts inductionHypothesis =>
      unfold compile at compiled
      split at compiled
      case h_1 => cases compiled
      case h_2 conditions parameters found =>
        cases compiled
        intro rest
        rw [allCondition_truth, FactFilter.truth]
        exact (compileParts_truth found (fun part among _ => inductionHypothesis part among) rest).2

/-- A selected row's facts satisfy the filter. -/
theorem accepts_of_selects {filter : FactFilter} {clause : Clause}
    (compiled : compile filter = .ok clause) (selected : clause.selects stored = true) :
    filter.accepts (membersOf stored) = true := by
  have known := FactFilter.truth_sound (membersOf stored) filter
  have means := compile_truth compiled stored []
  rw [List.append_nil] at means
  rw [Clause.selects, means, decide_eq_true_iff] at selected
  exact known.eq_of_true selected

/-- A row is selected when its facts satisfy the filter and the filter is grounded in them. -/
theorem selects_of_accepts {filter : FactFilter} {clause : Clause}
    (compiled : compile filter = .ok clause) (grounded : filter.Grounded (membersOf stored))
    (accepted : filter.accepts (membersOf stored) = true) : clause.selects stored = true := by
  have means := compile_truth compiled stored []
  rw [List.append_nil] at means
  rw [Clause.selects, means, decide_eq_true_iff]
  exact FactFilter.truth_of_accepts grounded accepted

end Query

namespace Database

open Query
open FactFilter (membersOf)

/-! ### Selected rows and accepted hosts -/

/-- A filter with plain keys has a condition, and among facts that name each key once the
condition selects only what the filter accepts once it is loaded, and all of it where the filter
is grounded in the loaded facts; the filter of some facts always is. -/
theorem selects_iff_accepts :
    (∀ filter : FactFilter, filter.Plain → ∃ clause, compile filter = .ok clause ∧
      ∀ stored, NamesOnce stored →
        (clause.selects stored = true → filter.accepts (loadedFacts stored) = true) ∧
        (filter.Grounded (loadedFacts stored) →
          (clause.selects stored = true ↔ filter.accepts (loadedFacts stored) = true))) ∧
    (∀ selected : FactTable, selected.isEmpty = false →
      (∀ key ∈ selected.keys, Condition.plainKey key = true) →
        ∃ filter clause, FactFilter.ofFacts selected = some filter ∧ compile filter = .ok clause ∧
          ∀ stored, NamesOnce stored →
            (clause.selects stored = true ↔ filter.accepts (loadedFacts stored) = true)) := by
  have sound : ∀ {filter clause}, compile filter = .ok clause → ∀ stored, NamesOnce stored →
      clause.selects stored = true → filter.accepts (loadedFacts stored) = true := by
    intro filter clause compiled stored once selected
    rw [accepts_loadedFacts once]
    exact accepts_of_selects compiled selected
  have complete : ∀ {filter clause}, compile filter = .ok clause → ∀ stored, NamesOnce stored →
      filter.Grounded (loadedFacts stored) → filter.accepts (loadedFacts stored) = true →
        clause.selects stored = true := by
    intro filter clause compiled stored once grounded accepted
    rw [accepts_loadedFacts once] at accepted
    exact selects_of_accepts compiled ((grounded_loadedFacts once).1 grounded) accepted
  constructor
  · intro filter plain
    obtain ⟨clause, compiled⟩ := exists_compile plain
    refine ⟨clause, compiled, fun stored once => ⟨sound compiled stored once, fun grounded => ?_⟩⟩
    exact ⟨sound compiled stored once, complete compiled stored once grounded⟩
  · intro selected nonempty plain
    obtain ⟨filter, made⟩ := FactFilter.exists_ofFacts nonempty
    obtain ⟨clause, compiled⟩ := exists_compile (FactFilter.plain_ofFacts made plain)
    refine ⟨filter, clause, made, compiled, fun stored once => ⟨sound compiled stored once, ?_⟩⟩
    exact complete compiled stored once (FactFilter.grounded_ofFacts made _)

/-- Anything but the name `a`. -/
def otherThanA : FactFilter := .noneOf [.contains "fqdn" (.single "a")]

/-- A row of another name is selected, because the name is there. -/
theorem other_name_selected :
    otherThanA.Plain ∧ NamesOnce (.object [("fqdn", .string "b")]) ∧
      otherThanA.Grounded (loadedFacts (.object [("fqdn", .string "b")])) ∧
        ∃ clause, compile otherThanA = .ok clause ∧
          clause.selects (.object [("fqdn", .string "b")]) = true := by
  have plain : otherThanA.Plain := by
    intro leaf present
    simp only [otherThanA, FactFilter.leaves, FactFilter.leavesUnder, FactFilter.leavesOf,
      List.append_nil, List.mem_singleton] at present
    subst present
    decide
  have once : NamesOnce (.object [("fqdn", .string "b")]) := by
    simp [NamesOnce, membersOf]
  have grounded : otherThanA.Grounded (loadedFacts (.object [("fqdn", .string "b")])) := by
    intro leaf present _ _
    simp only [otherThanA, FactFilter.leaves, FactFilter.leavesUnder, FactFilter.leavesOf,
      List.append_nil, List.mem_singleton] at present
    subst present
    decide
  obtain ⟨clause, compiled, agrees⟩ := selects_iff_accepts.1 otherThanA plain
  exact ⟨plain, once, grounded, clause, compiled, ((agrees _ once).2 grounded).2 (by decide)⟩

-- Of a row without a name it is unknown whether it is another one: accepted, not selected.
example : otherThanA.accepts (loadedFacts (.object [])) = true ∧
    (compile otherThanA).toOption.map (fun clause => clause.selects (.object [])) = some false := by
  decide

end Database

end HostPruning
