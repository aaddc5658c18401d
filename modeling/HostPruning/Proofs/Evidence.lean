import HostPruning.Proofs.Matching
import HostPruning.Proofs.Runs

/-!
# The evidence behind a removal

Both the removed host and the survivor share a fact with the scanned host and contradict none
of the facts it is matched on. An empty value is a fact like any other: an empty list is
contained in every list, so hosts that have nothing else in common may be merged on it
(`merged_on_empty_list`). `removals_share` says when this can happen: only when every selected
fact that a host carries is empty for the scanned host.

The store is only asked to answer candidates that satisfy the filter. Others may change it in
any way while the run goes on.
-/

namespace HostPruning

namespace FactFilter

/-- Whether some of the facts that is neither `""` nor `[]` is contained in the candidate's
value for its key. -/
def SharesFilled (selected : FactTable) (candidate : Json.Members) : Prop :=
  ∃ entry ∈ selected.entries, entry.2.isEmpty = false ∧
    ∃ stored, candidate.get? entry.1 = some stored ∧ entry.2.containedIn stored = true

/-- Whether the candidate carries the key of some of the facts that is neither `""` nor `[]`. -/
def CarriesFilled (selected : FactTable) (candidate : Json.Members) : Prop :=
  ∃ entry ∈ selected.entries, entry.2.isEmpty = false ∧ candidate.get? entry.1 ≠ none

/-- Whatever is carried and not contradicted is shared. -/
theorem sharesFilled_iff {selected : FactTable} {candidate : Json.Members}
    (agrees : Agrees selected candidate) :
    SharesFilled selected candidate ↔ CarriesFilled selected candidate := by
  constructor
  · rintro ⟨entry, present, filled, stored, found, -⟩
    refine ⟨entry, present, filled, ?_⟩
    rw [found]
    exact Option.some_ne_none stored
  · rintro ⟨entry, present, filled, carried⟩
    obtain ⟨stored, found⟩ := Option.ne_none_iff_exists'.1 carried
    exact ⟨entry, present, filled, stored, found, agrees entry present stored found⟩

end FactFilter

/-- A store whose candidates of an account satisfy the filter they were asked for. -/
def HostStore.Honest {World : Type} (store : HostStore World) : Prop :=
  ∀ account filter world found, (store.candidates account filter world).1 = .ok found →
    ∀ host ∈ found, host.account = account → filter.accepts host.facts = true

namespace Pruning

variable {World : Type}

/-- In custody the store is honest. -/
theorem Custody.honest (custody : Custody World) : custody.store.Honest := by
  intro account filter world found answered host present here
  have same := (custody.candidates_reads account filter world).2 found answered
  have among : host ∈ found.filter fun host => host.account = account :=
    List.mem_filter.2 ⟨present, decide_eq_true here⟩
  have accepted := mem_inSurvivorOrder.1 (same.mem_iff.1 among)
  exact (List.mem_filter.1 accepted).2

/-- What a removal rests on: the facts the scanned host is matched on, and how both hosts stand
to them. -/
structure Evidence (removal : Decision) (selected : FactTable) : Prop where
  identified : Identified removal.scanned.facts selected
  shares : ∀ host, host = removal.duplicate ∨ host = removal.survivor →
    FactFilter.Shares selected host.facts
  agrees : ∀ host, host = removal.duplicate ∨ host = removal.survivor →
    FactFilter.Agrees selected host.facts
  /-- A fact that is not empty is shared, unless none such is carried at all. -/
  filled : ∀ host, host = removal.duplicate ∨ host = removal.survivor →
    (FactFilter.SharesFilled selected host.facts ↔ FactFilter.CarriesFilled selected host.facts)

/-- A decision that an honest answer gave rise to has its evidence. -/
theorem Sourced.evidence {around : Surroundings World} {account : String} {decision : Decision}
    (sourced : Sourced around account decision) (honest : around.store.Honest) :
    ∃ selected, Evidence decision selected := by
  obtain ⟨basis, filter, world, found, made, answered, duplicate, survivor⟩ := sourced.answered
  obtain ⟨selected, identified, ofSelected⟩ := FactFilter.exists_identified made
  have satisfied : ∀ host, host = decision.duplicate ∨ host = decision.survivor →
      FactFilter.Shares selected host.facts ∧ FactFilter.Agrees selected host.facts := by
    intro host involved
    refine (FactFilter.ofFacts_accepts ofSelected host.facts).1 ?_
    rcases involved with rfl | rfl
    · exact honest account filter world found answered _ duplicate sourced.duplicate_account
    · exact honest account filter world found answered _ survivor sourced.survivor_account
  exact ⟨selected, identified, fun host involved => (satisfied host involved).1,
    fun host involved => (satisfied host involved).2,
    fun host involved => FactFilter.sharesFilled_iff (satisfied host involved).2⟩

/-- Every removal of a run has its evidence, whatever else happens to the store meanwhile. -/
theorem removals_share {around : Surroundings World} (honest : around.store.Honest) (plan : Plan)
    (world : World) : ∀ removal ∈ (performed around plan world).2.removals,
      ∃ selected, Evidence removal selected := by
  intro removal among
  have decided := performed_removals_subset around plan world among
  obtain ⟨account, sourced⟩ := performed_sourced around plan world removal decided
  exact sourced.evidence honest

/-- Two of three hosts are removed, and both removals have their evidence. -/
theorem three_hosts_share :
    (performed Rehearsal.calm.toSurroundings (Rehearsal.calmPlan 1)
        Rehearsal.threeHostStage).2.removals.length = 2 ∧
      ∀ removal ∈ (performed Rehearsal.calm.toSurroundings (Rehearsal.calmPlan 1)
        Rehearsal.threeHostStage).2.removals, ∃ selected, Evidence removal selected :=
  ⟨rfl, removals_share Rehearsal.calm.honest (Rehearsal.calmPlan 1) Rehearsal.threeHostStage⟩

/-- The facts of a host without an address. -/
def noAddress : FactTable := .insert ∅ "ip_addresses" (.many (TextSet.ofList []))

/-- A host without an address merges two hosts with different addresses: neither shares with it
a fact that is not empty. -/
theorem merged_on_empty_list :
    ∃ removal ∈ removed Rehearsal.calm (Rehearsal.calmPlan 1) Rehearsal.threeHostStage,
      ∃ selected, Identified removal.scanned.facts selected ∧
        ¬ FactFilter.SharesFilled selected removal.duplicate.facts ∧
          ¬ FactFilter.SharesFilled selected removal.survivor.facts := by
  have removals : removed Rehearsal.calm (Rehearsal.calmPlan 1) Rehearsal.threeHostStage =
      [⟨Rehearsal.addressedHost ⟨1, by decide⟩ [] 0,
          Rehearsal.addressedHost ⟨2, by decide⟩ ["10.0.0.2"] 1,
          Rehearsal.addressedHost ⟨3, by decide⟩ ["10.0.0.3"] 2⟩,
        ⟨Rehearsal.addressedHost ⟨1, by decide⟩ [] 0, Rehearsal.addressedHost ⟨1, by decide⟩ [] 0,
          Rehearsal.addressedHost ⟨3, by decide⟩ ["10.0.0.3"] 2⟩] := by rfl
  have empty : ∀ entry ∈ noAddress.entries, entry.2.isEmpty = true := by decide
  have nothing : ∀ candidate, ¬ FactFilter.SharesFilled noAddress candidate := by
    rintro candidate ⟨entry, present, filled, -⟩
    rw [empty entry present] at filled
    cases filled
  rw [removals]
  exact ⟨_, List.mem_cons_self, noAddress, ⟨noAddress, .regular, rfl, rfl⟩, nothing _, nothing _⟩

end Pruning

end HostPruning
