import Mathlib.Algebra.BigOperators.Group.List.Basic
import Mathlib.Algebra.Ring.Nat
import Mathlib.Data.List.Perm.Subperm
import HostPruning.Database.Store
import HostPruning.Proofs.Wording

/-!
# Queries that a database prepares

A database reads a condition only up to a depth and takes only so many values for a query, and a filter
may ask for more than that. `Askable` says when it does not. The condition of the filter of some facts has
one depth more for each key and two holes more for each text of a list (`depth_ofFacts_le`, `holes_ofFacts`).
Hosts are matched on few keys, so their filters are never too deep, and all that is asked of a host is that
its lists are short enough (`Host.askable_of_valueCount`).
-/

namespace HostPruning

open Query
open FactFilter (ofFacts ofHostFacts)

/-! ### The size of a condition -/

namespace Query.Condition

theorem holesOf_eq (parts : List Condition) : holesOf parts = (parts.map holes).sum := by
  induction parts with
  | nil => rfl
  | cons part rest inductionHypothesis => rw [holesOf, inductionHypothesis, List.map_cons, List.sum_cons]

/-- A chain is deeper than its deepest part by one for each part at most. -/
theorem depthBehind_le {front bound : Nat} {parts : List Condition} (frontBelow : front ≤ bound)
    (below : ∀ part ∈ parts, part.depth ≤ bound) : depthBehind front parts ≤ bound + parts.length := by
  induction parts generalizing front bound with
  | nil => exact frontBelow
  | cons part rest inductionHypothesis =>
      have first := below part List.mem_cons_self
      have further : ∀ other ∈ rest, other.depth ≤ bound + 1 := fun other among =>
        Nat.le_succ_of_le (below other (List.mem_cons_of_mem _ among))
      have behind := @inductionHypothesis (max front part.depth + 1) (bound + 1) (by omega) further
      rw [depthBehind, List.length_cons]
      omega

/-- A chain is deeper than its front by one for each part at least. -/
theorem le_depthBehind (front : Nat) (parts : List Condition) :
    front + parts.length ≤ depthBehind front parts := by
  induction parts generalizing front with
  | nil => exact Nat.le_refl front
  | cons part rest inductionHypothesis =>
      have behind := inductionHypothesis (max front part.depth + 1)
      rw [depthBehind, List.length_cons]
      omega

theorem depthOf_le {bound : Nat} {parts : List Condition} (below : ∀ part ∈ parts, part.depth ≤ bound) :
    depthOf parts ≤ bound + parts.length := by
  cases parts with
  | nil => exact Nat.zero_le _
  | cons part rest =>
      have behind := depthBehind_le (below part List.mem_cons_self) fun other among =>
        below other (List.mem_cons_of_mem _ among)
      rw [depthOf, List.length_cons]
      omega

theorem countDepth_le (given : Nat) : countDepth given ≤ 4 := by
  unfold countDepth
  split <;> omega

mutual

/-- No count is deep, since it holds no other. -/
theorem innerDepth_le : (condition : Condition) → condition.innerDepth ≤ 4
  | constant _ => Nat.zero_le 4
  | isText => Nat.zero_le 4
  | isList => Nat.zero_le 4
  | isPresent => Nat.zero_le 4
  | equalsText => Nat.zero_le 4
  | countsTexts given => countDepth_le given
  | not part => innerDepth_le part
  | all parts => innerDepthOf_le parts
  | any parts => innerDepthOf_le parts

theorem innerDepthOf_le : (parts : List Condition) → innerDepthOf parts ≤ 4
  | [] => Nat.zero_le 4
  | part :: rest => Nat.max_le.2 ⟨innerDepth_le part, innerDepthOf_le rest⟩

end

end Query.Condition

theorem Query.depth_containsCondition (value : FactValue) :
    0 < (containsCondition value).depth ∧ (containsCondition value).depth ≤ 7 := by
  cases value with
  | single text => exact (by decide : 0 < 4 ∧ 4 ≤ 7)
  | many texts =>
      have shallow := Condition.countDepth_le texts.members.length
      simp only [containsCondition, Condition.depth, Condition.depthOf, Condition.depthBehind]
      omega

/-! ### Filters of facts -/

namespace FactFilter

variable {selected : FactTable} {filter : FactFilter} {clause : Clause}

/-- The condition that a stored fact conflicts with a value. -/
def conflictCondition (value : FactValue) : Condition := .all [.isPresent, .not (containsCondition value)]

theorem condition_ofFacts (made : ofFacts selected = some filter) (compiled : compile filter = .ok clause) :
    clause.condition = .all
      [.any (selected.entries.map fun entry => containsCondition entry.2),
       .all [.not (.any (selected.entries.map fun entry => conflictCondition entry.2))]] := by
  obtain ⟨entry, among⟩ := ofFacts_nonempty made
  have nonempty : selected.entries ≠ [] := List.ne_nil_of_mem among
  unfold ofFacts at made
  split at made
  next => cases made
  next =>
    cases made
    rw [compile_eq _ false] at compiled
    obtain ⟨-, rfl⟩ := ifPlain_eq_ok.1 compiled
    simp [shapeOf, shapesOf, Shape.condition, Shape.conditions, conditions_shapesOf, allCondition,
      anyCondition, nonempty, containsCondition_eq, conflictCondition, Function.comp_def]

/-- The condition of a filter of facts has the holes of each value twice and one for its key more. -/
theorem holes_ofFacts (made : ofFacts selected = some filter) (compiled : compile filter = .ok clause) :
    clause.condition.holes =
      (selected.entries.map fun entry => 2 * (containsCondition entry.2).holes + 1).sum := by
  rw [condition_ofFacts made compiled]
  simp only [Condition.holes, Condition.holesOf, Condition.holesOf_eq, List.map_map, Function.comp_def,
    conflictCondition, Nat.add_zero]
  -- Each value is asked for in both halves, its key only in the second.
  rw [← List.sum_map_add]
  exact congrArg List.sum (List.map_congr_left fun entry _ => by omega)

/-- Each key makes the condition of a filter of facts deeper by one. -/
theorem depth_ofFacts_le (made : ofFacts selected = some filter) (compiled : compile filter = .ok clause) :
    clause.condition.depth ≤ selected.size + 11 := by
  have contained := @Condition.depthOf_le 7 (selected.entries.map fun entry => containsCondition entry.2) (by
    intro part among
    obtain ⟨entry, -, rfl⟩ := List.mem_map.1 among
    exact (depth_containsCondition entry.2).2)
  have contradicted := @Condition.depthOf_le 9 (selected.entries.map fun entry => conflictCondition entry.2) (by
    intro part among
    obtain ⟨entry, -, rfl⟩ := List.mem_map.1 among
    have shallow := (depth_containsCondition entry.2).2
    simp only [conflictCondition, Condition.depth, Condition.depthOf, Condition.depthBehind]
    omega)
  rw [List.length_map] at contained contradicted
  rw [condition_ofFacts made compiled, Table.size]
  simp only [Condition.depth, Condition.depthOf, Condition.depthBehind]
  omega

theorem lt_depth_ofFacts (made : ofFacts selected = some filter) (compiled : compile filter = .ok clause) :
    selected.size < clause.condition.depth := by
  have contained : selected.size ≤
      Condition.depthOf (selected.entries.map fun entry => containsCondition entry.2) := by
    rw [Table.size]
    cases selected.entries with
    | nil => exact Nat.zero_le _
    | cons entry rest =>
        have behind := Condition.le_depthBehind (containsCondition entry.2).depth
          (rest.map fun entry => containsCondition entry.2)
        have first := (depth_containsCondition entry.2).1
        rw [List.length_map] at behind
        rw [List.map_cons, Condition.depthOf, List.length_cons]
        omega
  rw [condition_ofFacts made compiled]
  simp only [Condition.depth, Condition.depthOf, Condition.depthBehind]
  omega

end FactFilter

/-- A host is matched on known keys, each of them once. -/
theorem Identified.size_le {raw : Json.Members} {selected : FactTable} (identified : Identified raw selected) :
    selected.size ≤ Facts.knownKeys.length := by
  have distinct : selected.keys.Nodup := by
    refine List.Pairwise.imp ?_ (List.pairwise_map.2 selected.ascending)
    rintro earlier later before rfl
    exact AscendingKey.irrefl earlier before
  have known : selected.keys ⊆ Facts.knownKeys := by
    intro key present
    obtain ⟨entry, among, rfl⟩ := List.mem_map.1 present
    exact (identified.readFrom among).known
  have bounded := (distinct.subperm known).length_le
  rwa [Table.keys, List.length_map] at bounded

namespace Database

variable {filter : FactFilter} {condition : Condition}

/-- A query is prepared when its condition has room for the comparison of the account in front of it. -/
theorem prepare_eq_ok_iff : prepare condition = .ok () ↔
    condition.depth + condition.innerDepth < greatestDepth ∧ condition.holes < greatestParameterCount := by
  unfold prepare
  split
  next deep => simp only [reduceCtorEq, false_iff]; omega
  next =>
    split
    next many => simp only [reduceCtorEq, false_iff]; omega
    next => simp only [true_iff]; omega

/-- Whether the database prepares the query for a filter's candidates, if it compiles. -/
def Askable (filter : FactFilter) : Prop := ∀ clause, compile filter = .ok clause →
  clause.condition.depth + clause.condition.innerDepth < greatestDepth ∧
    clause.condition.holes < greatestParameterCount

/-- Candidates that cannot be asked for are refused, whoever is stored. -/
theorem loadCandidates_of_not_askable (refused : ¬ Askable filter) (account : String) (database : Database) :
    (database.loadCandidates account filter).isOk = false := by
  unfold loadCandidates
  split
  next => rfl
  next clause compiled =>
    split
    next => rfl
    next prepared =>
      refine absurd (fun other otherCompiled => ?_) refused
      obtain rfl := Except.ok.inj (compiled.symm.trans otherCompiled)
      exact prepare_eq_ok_iff.1 prepared

end Database

/-- How many values the query for a host's candidates takes besides the account's. -/
def Host.valueCount (host : Host) : Nat :=
  match ofHostFacts host.facts with
  | .ok (some (_, filter)) =>
      match compile filter with
      | .ok clause => clause.condition.holes
      | .error _ => 0
  | _ => 0

/-- The filter of a host with few enough values can be asked for: it is never too deep. -/
theorem Host.askable_of_valueCount {host : Host} (few : host.valueCount < Database.greatestParameterCount)
    {basis : Facts.Basis} {filter : FactFilter}
    (made : ofHostFacts host.facts = .ok (some (basis, filter))) : Database.Askable filter := by
  intro clause compiled
  obtain ⟨selected, identified, ofSelected⟩ := FactFilter.exists_identified made
  have keys := identified.size_le
  have shallow := FactFilter.depth_ofFacts_le ofSelected compiled
  have inner := clause.condition.innerDepth_le
  have known : Facts.knownKeys.length + 11 + 4 < Database.greatestDepth := by decide
  simp only [valueCount, made, compiled] at few
  exact ⟨by omega, few⟩

end HostPruning
