import HostPruning.Proofs.Matching
import HostPruning.Query.Condition

/-!
# What is known of a filter

A filter has two truth values and a condition on stored facts has three. `FactFilter.truth` is a
filter's own three-valued meaning: of a fact that is missing it is mostly unknown whether it
contains a value. Two facts tie it to acceptance. What is known is so (`truth_sound`), and a
filter that is accepted is known to be when it is grounded (`truth_of_accepts`), that is, when
every containment it asks for under a negation is about a fact that is there. Negated parts
need more, because there the unknown is no better than the true: `truth_of_present` says that
below a negation everything is known.
-/

namespace HostPruning

open Query

namespace FactFilter

/-- A property that comparisons have, and filters made of parts that have it, is one of all
filters. -/
@[elab_as_elim]
theorem partsInduction {motive : FactFilter → Prop}
    (contains : ∀ key value, motive (.contains key value))
    (conflicts : ∀ key value, motive (.conflicts key value))
    (anyOf : ∀ parts, (∀ part ∈ parts, motive part) → motive (.anyOf parts))
    (noneOf : ∀ parts, (∀ part ∈ parts, motive part) → motive (.noneOf parts))
    (allOf : ∀ parts, (∀ part ∈ parts, motive part) → motive (.allOf parts))
    (filter : FactFilter) : motive filter := by
  refine @FactFilter.rec motive (fun parts => ∀ part ∈ parts, motive part)
    contains conflicts anyOf noneOf allOf ?_ ?_ filter
  · exact fun part present => absurd present List.not_mem_nil
  · intro head rest headHolds restHold part present
    rcases List.mem_cons.1 present with rfl | later
    · exact headHolds
    · exact restHold part later

/-! ### The comparisons in a filter -/

/-- A comparison in a filter. -/
structure Leaf where
  key : String
  value : FactValue
  /-- Whether it asks for a conflict and not for containment. -/
  conflicting : Bool
  /-- Whether it lies under a negation. -/
  negated : Bool

mutual

/-- The comparisons in a filter, from left to right; those of a filter that itself lies under a
negation are negated. -/
def leavesUnder (negated : Bool) : FactFilter → List Leaf
  | contains key value => [⟨key, value, false, negated⟩]
  | conflicts key value => [⟨key, value, true, negated⟩]
  | anyOf parts => leavesOf negated parts
  | noneOf parts => leavesOf true parts
  | allOf parts => leavesOf negated parts

/-- The comparisons in some filters. -/
def leavesOf (negated : Bool) : List FactFilter → List Leaf
  | [] => []
  | part :: rest => part.leavesUnder negated ++ leavesOf negated rest

end

/-- The comparisons in a filter. -/
def leaves (filter : FactFilter) : List Leaf := filter.leavesUnder false

theorem mem_leavesOf {negated : Bool} {parts : List FactFilter} {leaf : Leaf} :
    leaf ∈ leavesOf negated parts ↔ ∃ part ∈ parts, leaf ∈ part.leavesUnder negated := by
  induction parts with
  | nil => simp [leavesOf]
  | cons part rest inductionHypothesis => simp [leavesOf, inductionHypothesis]

/-- Whether every key of a filter is a plain identifier. -/
def Plain (filter : FactFilter) : Prop := ∀ leaf ∈ filter.leaves, Condition.plainKey leaf.key = true

/-- Whether every containment asked for under a negation is about a fact that is there. -/
def Grounded (facts : Json.Members) (filter : FactFilter) : Prop :=
  ∀ leaf ∈ filter.leaves, leaf.negated = true → leaf.conflicting = false → facts.get? leaf.key ≠ none

/-! ### Three-valued meaning -/

/-- Whether the fact under a key contains a value. Of a fact that is not there nothing is known,
except that it does not hold the texts of a list. -/
def containment (value : FactValue) : Option Json → Option Bool
  | some stored => some (value.containedIn stored)
  | none =>
      match value with
      | .single _ => none
      | .many texts => if texts.members.isEmpty then none else some false

mutual

/-- What is known of stored facts satisfying a filter. -/
def truth (facts : Json.Members) : FactFilter → Option Bool
  | contains key value => containment value (facts.get? key)
  | conflicts key value =>
      both (some (facts.get? key).isSome) (negate (containment value (facts.get? key)))
  | anyOf parts => truthAny facts parts
  | noneOf parts => negate (truthAny facts parts)
  | allOf parts => truthAll facts parts

/-- What is known of some filter of a list being satisfied. -/
def truthAny (facts : Json.Members) : List FactFilter → Option Bool
  | [] => some false
  | part :: rest => either (part.truth facts) (truthAny facts rest)

/-- What is known of every filter of a list being satisfied. -/
def truthAll (facts : Json.Members) : List FactFilter → Option Bool
  | [] => some true
  | part :: rest => both (part.truth facts) (truthAll facts rest)

end

end FactFilter

namespace Query

@[simp]
theorem both_true (value : Option Bool) : both value (some true) = value := by
  rcases value with none | (false | true) <;> rfl

theorem both_eq_true {left right : Option Bool} :
    both left right = some true ↔ left = some true ∧ right = some true := by
  rcases left with none | (false | true) <;> rcases right with none | (false | true) <;> simp [both]

theorem either_eq_true {left right : Option Bool} :
    either left right = some true ↔ left = some true ∨ right = some true := by
  rcases left with none | (false | true) <;> rcases right with none | (false | true) <;> simp [either]

@[simp]
theorem both_some (left right : Bool) : both (some left) (some right) = some (left && right) := by
  cases left <;> cases right <;> rfl

@[simp]
theorem either_some (left right : Bool) : either (some left) (some right) = some (left || right) := by
  cases left <;> cases right <;> rfl

/-- Whether what is known, if anything, is so. -/
def Known (known : Option Bool) (actual : Bool) : Prop := known = none ∨ known = some actual

namespace Known

variable {left right : Option Bool} {leftActual rightActual : Bool}

theorem of_some (actual : Bool) : Known (some actual) actual := Or.inr rfl

theorem both (first : Known left leftActual) (second : Known right rightActual) :
    Known (both left right) (leftActual && rightActual) := by
  rcases first with rfl | rfl <;> rcases second with rfl | rfl <;>
    cases leftActual <;> cases rightActual <;> simp [Known, Query.both]

theorem either (first : Known left leftActual) (second : Known right rightActual) :
    Known (either left right) (leftActual || rightActual) := by
  rcases first with rfl | rfl <;> rcases second with rfl | rfl <;>
    cases leftActual <;> cases rightActual <;> simp [Known, Query.either]

theorem negate (known : Known left leftActual) : Known (negate left) (! leftActual) := by
  rcases known with rfl | rfl <;> simp [Known, Query.negate]

theorem eq_of_true (known : Known left leftActual) (isTrue : left = some true) :
    leftActual = true := by
  rcases known with rfl | rfl
  · cases isTrue
  · exact Option.some.inj isTrue

end Known

end Query

namespace FactFilter

variable {facts : Json.Members}

/-! ### What is known is so -/

theorem containment_known (value : FactValue) (stored : Option Json) :
    Known (containment value stored) (stored.any value.containedIn) := by
  cases stored with
  | some stored => exact .of_some _
  | none =>
      cases value with
      | single text => exact Or.inl rfl
      | many texts =>
          unfold containment
          dsimp only
          split
          · exact Or.inl rfl
          · exact .of_some _

theorem accepts_contains_eq (key : String) (value : FactValue) :
    accepts facts (contains key value) = (facts.get? key).any value.containedIn := by
  unfold accepts
  cases facts.get? key <;> rfl

theorem accepts_conflicts_eq (key : String) (value : FactValue) :
    accepts facts (conflicts key value) =
      ((facts.get? key).isSome && ! (facts.get? key).any value.containedIn) := by
  unfold accepts
  cases facts.get? key <;> rfl

theorem truthAny_sound {parts : List FactFilter}
    (each : ∀ part ∈ parts, Known (part.truth facts) (part.accepts facts)) :
    Known (truthAny facts parts) (parts.any (accepts facts)) := by
  induction parts with
  | nil => exact .of_some _
  | cons part rest inductionHypothesis =>
      rw [truthAny, List.any_cons]
      exact (each part List.mem_cons_self).either
        (inductionHypothesis fun other later => each other (List.mem_cons_of_mem _ later))

theorem truthAll_sound {parts : List FactFilter}
    (each : ∀ part ∈ parts, Known (part.truth facts) (part.accepts facts)) :
    Known (truthAll facts parts) (parts.all (accepts facts)) := by
  induction parts with
  | nil => exact .of_some _
  | cons part rest inductionHypothesis =>
      rw [truthAll, List.all_cons]
      exact (each part List.mem_cons_self).both
        (inductionHypothesis fun other later => each other (List.mem_cons_of_mem _ later))

/-- What is known of stored facts satisfying a filter is so. -/
theorem truth_sound (facts : Json.Members) (filter : FactFilter) :
    Known (filter.truth facts) (filter.accepts facts) := by
  induction filter using partsInduction with
  | contains key value =>
      rw [truth, accepts_contains_eq]
      exact containment_known value _
  | conflicts key value =>
      rw [truth, accepts_conflicts_eq]
      exact Known.both (.of_some _) (containment_known value _).negate
  | anyOf parts inductionHypothesis =>
      rw [truth, accepts_anyOf]
      exact truthAny_sound inductionHypothesis
  | noneOf parts inductionHypothesis =>
      rw [truth, accepts_noneOf]
      exact (truthAny_sound inductionHypothesis).negate
  | allOf parts inductionHypothesis =>
      rw [truth, accepts_allOf]
      exact truthAll_sound inductionHypothesis

/-! ### All is known of facts that are there -/

theorem truthAny_eq_true {parts : List FactFilter} :
    truthAny facts parts = some true ↔ ∃ part ∈ parts, part.truth facts = some true := by
  induction parts with
  | nil => simp [truthAny]
  | cons part rest inductionHypothesis => simp [truthAny, either_eq_true, inductionHypothesis]

theorem truthAll_eq_true {parts : List FactFilter} :
    truthAll facts parts = some true ↔ ∀ part ∈ parts, part.truth facts = some true := by
  induction parts with
  | nil => simp [truthAll]
  | cons part rest inductionHypothesis => simp [truthAll, both_eq_true, inductionHypothesis]

theorem truthAny_of_known {parts : List FactFilter}
    (known : ∀ part ∈ parts, part.truth facts = some (part.accepts facts)) :
    truthAny facts parts = some (parts.any (accepts facts)) := by
  induction parts with
  | nil => rfl
  | cons part rest inductionHypothesis =>
      rw [truthAny, known part List.mem_cons_self,
        inductionHypothesis fun other later => known other (List.mem_cons_of_mem _ later)]
      simp

theorem truthAll_of_known {parts : List FactFilter}
    (known : ∀ part ∈ parts, part.truth facts = some (part.accepts facts)) :
    truthAll facts parts = some (parts.all (accepts facts)) := by
  induction parts with
  | nil => rfl
  | cons part rest inductionHypothesis =>
      rw [truthAll, known part List.mem_cons_self,
        inductionHypothesis fun other later => known other (List.mem_cons_of_mem _ later)]
      simp

/-- A conflict is asked for together with the fact being there, so it is always known. -/
theorem truth_conflicts (key : String) (value : FactValue) :
    (conflicts key value).truth facts = some ((conflicts key value).accepts facts) := by
  rw [truth, accepts_conflicts_eq]
  cases facts.get? key with
  | none => rfl
  | some stored => exact both_some true _

/-- Under a negation that asks only for containment in facts that are there, all is known. -/
theorem truth_of_present {filter : FactFilter}
    (present : ∀ leaf ∈ filter.leavesUnder true, leaf.negated = true → leaf.conflicting = false →
      facts.get? leaf.key ≠ none) : filter.truth facts = some (filter.accepts facts) := by
  induction filter using partsInduction with
  | contains key value =>
      obtain ⟨stored, found⟩ := Option.ne_none_iff_exists'.1
        (present ⟨key, value, false, true⟩ (by simp [leavesUnder]) rfl rfl)
      rw [truth, accepts_contains_eq, found]
      rfl
  | conflicts key value => exact truth_conflicts key value
  | anyOf parts inductionHypothesis =>
      rw [truth, accepts_anyOf]
      refine truthAny_of_known fun part among => inductionHypothesis part among fun leaf inPart => ?_
      exact present leaf (mem_leavesOf.2 ⟨part, among, inPart⟩)
  | noneOf parts inductionHypothesis =>
      have known : truthAny facts parts = some (parts.any (accepts facts)) := by
        refine truthAny_of_known fun part among => inductionHypothesis part among fun leaf inPart => ?_
        exact present leaf (mem_leavesOf.2 ⟨part, among, inPart⟩)
      rw [truth, accepts_noneOf, known]
      rfl
  | allOf parts inductionHypothesis =>
      rw [truth, accepts_allOf]
      refine truthAll_of_known fun part among => inductionHypothesis part among fun leaf inPart => ?_
      exact present leaf (mem_leavesOf.2 ⟨part, among, inPart⟩)

/-- What a grounded filter accepts is known to satisfy it. -/
theorem truth_of_accepts {filter : FactFilter} (grounded : filter.Grounded facts)
    (accepted : filter.accepts facts = true) : filter.truth facts = some true := by
  unfold Grounded leaves at grounded
  induction filter using partsInduction with
  | contains key value =>
      rw [accepts_contains] at accepted
      obtain ⟨stored, found, contained⟩ := accepted
      rw [truth, found, containment, contained]
  | conflicts key value => rw [truth_conflicts, accepted]
  | anyOf parts inductionHypothesis =>
      rw [accepts_anyOf, List.any_eq_true] at accepted
      obtain ⟨part, among, partAccepted⟩ := accepted
      rw [truth, truthAny_eq_true]
      refine ⟨part, among, inductionHypothesis part among (fun leaf inPart => ?_) partAccepted⟩
      exact grounded leaf (mem_leavesOf.2 ⟨part, among, inPart⟩)
  | noneOf parts _ =>
      have known : truthAny facts parts = some (parts.any (accepts facts)) := by
        refine truthAny_of_known fun part among => truth_of_present fun leaf inPart => ?_
        exact grounded leaf (mem_leavesOf.2 ⟨part, among, inPart⟩)
      rw [accepts_noneOf] at accepted
      rw [truth, known, negate, accepted]
  | allOf parts inductionHypothesis =>
      rw [accepts_allOf, List.all_eq_true] at accepted
      rw [truth, truthAll_eq_true]
      intro part among
      refine inductionHypothesis part among (fun leaf inPart => ?_) (accepted part among)
      exact grounded leaf (mem_leavesOf.2 ⟨part, among, inPart⟩)

/-! ### The filter of some facts -/

/-- The filter of some facts asks for containment outside negations and for conflicts below
one. -/
theorem mem_leaves_ofFacts {selected : FactTable} {filter : FactFilter}
    (made : ofFacts selected = some filter) {leaf : Leaf} (present : leaf ∈ filter.leaves) :
    ∃ entry ∈ selected.entries, leaf = ⟨entry.1, entry.2, false, false⟩ ∨
      leaf = ⟨entry.1, entry.2, true, true⟩ := by
  unfold ofFacts at made
  split at made
  · cases made
  · cases made
    simp only [leaves, leavesUnder, leavesOf, List.append_nil, List.mem_append, mem_leavesOf,
      List.mem_map] at present
    rcases present with ⟨part, ⟨entry, among, rfl⟩, inPart⟩ | ⟨part, ⟨entry, among, rfl⟩, inPart⟩
    · exact ⟨entry, among, Or.inl (List.mem_singleton.1 inPart)⟩
    · exact ⟨entry, among, Or.inr (List.mem_singleton.1 inPart)⟩

/-- It is grounded in whatever is stored. -/
theorem grounded_ofFacts {selected : FactTable} {filter : FactFilter}
    (made : ofFacts selected = some filter) (facts : Json.Members) : filter.Grounded facts := by
  intro leaf present negated notConflicting
  obtain ⟨entry, -, rfl | rfl⟩ := mem_leaves_ofFacts made present
  · cases negated
  · cases notConflicting

/-- Its keys are those of the facts. -/
theorem plain_ofFacts {selected : FactTable} {filter : FactFilter}
    (made : ofFacts selected = some filter)
    (plain : ∀ key ∈ selected.keys, Condition.plainKey key = true) : filter.Plain := by
  intro leaf present
  obtain ⟨entry, among, rfl | rfl⟩ := mem_leaves_ofFacts made present
  · exact plain entry.1 (List.mem_map_of_mem among)
  · exact plain entry.1 (List.mem_map_of_mem among)

/-- Some facts have a filter. -/
theorem exists_ofFacts {selected : FactTable} (nonempty : selected.isEmpty = false) :
    ∃ filter, ofFacts selected = some filter :=
  ⟨_, if_neg (by simp [nonempty])⟩

end FactFilter

end HostPruning
