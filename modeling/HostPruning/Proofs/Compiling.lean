import HostPruning.Proofs.Knowledge
import HostPruning.Query.Compile

/-!
# What a filter compiles to

Compiling looks at every comparison of a filter once, from left to right. `compile_eq` says all that
comes of it in one equation: the first key that is no plain identifier is refused, and where all are
plain the condition goes by the filter's shape and the values by its comparisons. A filter's `Shape`
is what is left of it without its keys and values.
-/

namespace HostPruning.Query

open FactFilter (Leaf leavesUnder leavesOf)
open Condition (plainKey path)

/-- What is left of a filter without its keys and values: of a value, whether it is a text or a list
and how long a list. -/
inductive Shape where
  | contains (length : Option Nat)
  | conflicts (length : Option Nat)
  | anyOf (parts : List Shape)
  | noneOf (parts : List Shape)
  | allOf (parts : List Shape)

/-- The length of a list of texts, none for a text. -/
def listLength : FactValue → Option Nat
  | .single _ => none
  | .many texts => some texts.members.length

mutual

/-- The shape of a filter. -/
def shapeOf : FactFilter → Shape
  | .contains _ value => .contains (listLength value)
  | .conflicts _ value => .conflicts (listLength value)
  | .anyOf parts => .anyOf (shapesOf parts)
  | .noneOf parts => .noneOf (shapesOf parts)
  | .allOf parts => .allOf (shapesOf parts)

/-- The shapes of several filters. -/
def shapesOf : List FactFilter → List Shape
  | [] => []
  | part :: rest => shapeOf part :: shapesOf rest

end

namespace Shape

/-- The condition that a fact contains a text, or a list of some length. -/
def comparison : Option Nat → Condition
  | none => .all [.isText, .equalsText]
  | some length => .all [.isList, .countsTexts length]

mutual

/-- The condition of all filters of a shape. -/
def condition : Shape → Condition
  | .contains length => comparison length
  | .conflicts length => .all [.isPresent, .not (comparison length)]
  | .anyOf parts => anyCondition (conditions parts)
  | .noneOf parts => .all [.not (anyCondition (conditions parts))]
  | .allOf parts => allCondition (conditions parts)

/-- The conditions of several shapes. -/
def conditions : List Shape → List Condition
  | [] => []
  | part :: rest => part.condition :: conditions rest

end

end Shape

/-- The values that a comparison asks for, in their order. -/
def leafValues (leaf : Leaf) : List Parameter :=
  let place : Parameter := .text (path leaf.key)
  let contained : List Parameter :=
    match leaf.value with
    | .single text => [place, place, .text text]
    | .many texts => place :: place :: (texts.members.map .text ++ [.integer texts.members.length])
  if leaf.conflicting then place :: contained else contained

/-- A result for some comparisons, unless one of them has a key that is not plain; the first such key
is refused. -/
def ifPlain {Result : Type} (leaves : List Leaf) (result : Result) : Except DatabaseFault Result :=
  match leaves.find? fun leaf => !plainKey leaf.key with
  | some leaf => .error (.keyNotPlain leaf.key)
  | none => .ok result

theorem containsCondition_eq (value : FactValue) :
    containsCondition value = Shape.comparison (listLength value) := by
  cases value <;> rfl

/-- Several filters are compiled one after the other; what the first refuses is refused. -/
theorem compileParts_eq {parts : List FactFilter} (negated : Bool)
    (each : ∀ part ∈ parts, compile part = ifPlain (part.leavesUnder negated)
      ⟨(shapeOf part).condition, (part.leavesUnder negated).flatMap leafValues⟩) :
    compileParts parts = ifPlain (leavesOf negated parts)
      (Shape.conditions (shapesOf parts), (leavesOf negated parts).flatMap leafValues) := by
  induction parts with
  | nil => rfl
  | cons part rest inductionHypothesis =>
      have first := each part List.mem_cons_self
      have others := inductionHypothesis fun other later => each other (List.mem_cons_of_mem _ later)
      unfold ifPlain at first others ⊢
      rw [compileParts, first, leavesOf, List.find?_append]
      cases unfit : (part.leavesUnder negated).find? fun leaf => !plainKey leaf.key with
      | some leaf => rfl
      | none =>
          rw [others]
          cases (leavesOf negated rest).find? fun leaf => !plainKey leaf.key with
          | some leaf => rfl
          | none => simp [Shape.conditions, shapesOf]

/-- A filter compiles to the condition of its shape with the values of its comparisons, unless it has
a key that is not plain. Whether it lies under a negation makes no difference. -/
theorem compile_eq (filter : FactFilter) (negated : Bool) :
    compile filter = ifPlain (filter.leavesUnder negated)
      ⟨(shapeOf filter).condition, (filter.leavesUnder negated).flatMap leafValues⟩ := by
  induction filter using FactFilter.partsInduction generalizing negated with
  | contains key value =>
      cases plain : plainKey key <;> cases value <;>
        simp [compile, pathOf, ifPlain, plain, leavesUnder, leafValues, shapeOf, Shape.condition,
          containsCondition_eq, containsParameters]
  | conflicts key value =>
      cases plain : plainKey key <;> cases value <;>
        simp [compile, pathOf, ifPlain, plain, leavesUnder, leafValues, shapeOf, Shape.condition,
          containsCondition_eq, containsParameters]
  | anyOf parts inductionHypothesis =>
      rw [compile, compileParts_eq negated fun part among => inductionHypothesis part among negated]
      unfold ifPlain
      rw [leavesUnder, shapeOf, Shape.condition]
      cases (leavesOf negated parts).find? fun leaf => !plainKey leaf.key <;> rfl
  | noneOf parts inductionHypothesis =>
      rw [compile, compileParts_eq true fun part among => inductionHypothesis part among true]
      unfold ifPlain
      rw [leavesUnder, shapeOf, Shape.condition]
      cases (leavesOf true parts).find? fun leaf => !plainKey leaf.key <;> rfl
  | allOf parts inductionHypothesis =>
      rw [compile, compileParts_eq negated fun part among => inductionHypothesis part among negated]
      unfold ifPlain
      rw [leavesUnder, shapeOf, Shape.condition]
      cases (leavesOf negated parts).find? fun leaf => !plainKey leaf.key <;> rfl

/-- A filter whose keys are plain has a condition, whether or not it lies under a negation. -/
theorem exists_compile {filter : FactFilter} {negated : Bool}
    (plain : ∀ leaf ∈ filter.leavesUnder negated, plainKey leaf.key = true) :
    ∃ clause, compile filter = .ok clause := by
  have unfit : (filter.leavesUnder negated).find? (fun leaf => !plainKey leaf.key) = none :=
    List.find?_eq_none.2 fun leaf among => by simp [plain leaf among]
  rw [compile_eq filter negated, ifPlain, unfit]
  exact ⟨_, rfl⟩

end HostPruning.Query
