import HostPruning.Proofs.Matching
import HostPruning.Proofs.Runs

/-!
# Every removal is justified

A removal rests on a third host, the scanned one, which need be neither the removed host nor
the survivor and may itself be removed for the same scan. `Justified` names the moment: the
removals made before the host was scanned, and those already made for it. At that moment the
survivor was the first of the account's stored hosts that the scanned host's filter accepts.

`run_justified` finds that moment for every removal of a run in custody.
-/

namespace HostPruning.Pruning

open Inventory

/-- Why a host was removed in favour of another: `earlier` were the removals before its host was
scanned, `group` those for the same scan so far. -/
structure Justified (plan : Plan) (start : Inventory) (earlier group : List Decision)
    (removal : Decision) (filter : FactFilter) : Prop where
  /-- The scanned host was stored at the start and had not been removed. -/
  scanned : removal.scanned ∈ (start.after earlier).hosts
  /-- Its facts are well formed, and the filter is that of its identity facts. -/
  filtered : ∃ selected, Identified removal.scanned.facts selected ∧
    FactFilter.ofFacts selected = some filter
  accounts : removal.duplicate.account = removal.scanned.account ∧
    removal.survivor.account = removal.scanned.account
  accepted : filter.accepts removal.duplicate.facts = true ∧
    filter.accepts removal.survivor.facts = true
  /-- Both hosts were still stored when one was removed in favour of the other. -/
  stored : removal.duplicate ∈ (start.after (earlier ++ group)).hosts ∧
    removal.survivor ∈ (start.after (earlier ++ group)).hosts
  /-- Nobody that the filter accepted, and that was not left alone as culled, outranked the
  survivor. -/
  first : ∀ host ∈ (start.after earlier).hosts, host.account = removal.scanned.account →
    filter.accepts host.facts = true →
      (plan.options.excludeCulled = true →
        (plan.clockFor start removal.scanned.account).isCulled host = false) →
      host = removal.survivor ∨ removal.survivor.Outranks host
  /-- By the account's own policy, if it has one. -/
  notCulled : plan.options.excludeCulled = true →
    (plan.clockFor start removal.scanned.account).isCulled removal.duplicate = false ∧
      (plan.clockFor start removal.scanned.account).isCulled removal.survivor = false
  /-- The removals of a scan follow each other and are all in favour of one survivor. -/
  sameScan : ∀ other ∈ group, other.scanned = removal.scanned ∧ other.survivor = removal.survivor
  /-- No host is scanned twice. -/
  scannedOnce : ∀ other ∈ earlier, other.scanned.id ≠ removal.scanned.id

/-- Removals each of which is justified at its place. -/
def EachJustified (plan : Plan) (start : Inventory) (removals : List Decision) : Prop :=
  ∀ before removal after, removals = before ++ removal :: after →
    ∃ earlier group filter, before = earlier ++ group ∧
      Justified plan start earlier group removal filter

/-- A decision is justified by the scan it arises from. -/
theorem Arises.justified {plan : Plan} {inventory : Inventory} {earlier group : List Decision}
    {decision : Decision} {filter : FactFilter}
    (arises : Arises plan inventory earlier group decision filter) :
    Justified plan inventory earlier group decision filter := by
  obtain ⟨duplicateStored, duplicateAccepted, duplicateKept⟩ := mem_rivals.1 arises.duplicate_rival
  obtain ⟨survivorStored, survivorAccepted, survivorKept⟩ := mem_rivals.1 arises.survivor_rival
  obtain ⟨basis, made⟩ := arises.made
  exact
    { scanned := arises.present
      filtered := FactFilter.exists_identified made
      accounts := ⟨duplicateStored.2, survivorStored.2⟩
      accepted := ⟨duplicateAccepted, survivorAccepted⟩
      stored := ⟨arises.duplicate_present, arises.survivor_present⟩
      first := fun host present here accepted kept =>
        arises.survivor_outranks (mem_rivals.2 ⟨⟨present, here⟩, accepted, kept⟩)
      notCulled := fun exclude => ⟨duplicateKept exclude, survivorKept exclude⟩
      sameScan := arises.alike
      scannedOnce := arises.fresh }

/-- Only a host with a known fact satisfies a filter, so only such a host takes part. -/
theorem Justified.known {plan : Plan} {start : Inventory} {earlier group : List Decision}
    {removal : Decision} {filter : FactFilter}
    (justified : Justified plan start earlier group removal filter) {host : Host}
    (involved : host = removal.duplicate ∨ host = removal.survivor) :
    ∃ key ∈ Facts.knownKeys, host.facts.get? key ≠ none := by
  obtain ⟨selected, identified, made⟩ := justified.filtered
  have accepted : filter.accepts host.facts = true := by
    rcases involved with rfl | rfl
    · exact justified.accepted.1
    · exact justified.accepted.2
  exact identified.exists_known_of_accepts made accepted

/-- Every removal of a run in custody is justified, and no host without a known fact is removed
or named as a survivor. -/
theorem run_justified {World : Type} (custody : Custody World) (plan : Plan) (world : World) :
    EachJustified plan (custody.held world) (removed custody plan world) ∧
      ∀ removal ∈ removed custody plan world, ∀ host,
        host = removal.duplicate ∨ host = removal.survivor →
          ∃ key ∈ Facts.knownKeys, host.facts.get? key ≠ none := by
  have each : EachJustified plan (custody.held world) (removed custody plan world) := by
    intro before removal after split
    obtain ⟨earlier, group, filter, parts, arises⟩ :=
      exists_arises_of_ahead (prefix_removed custody plan world) split
    exact ⟨earlier, group, filter, parts, arises.justified⟩
  refine ⟨each, fun removal among host involved => ?_⟩
  obtain ⟨before, after, split⟩ := List.append_of_mem among
  obtain ⟨earlier, group, filter, -, justified⟩ := each before removal after split
  exact justified.known involved

end HostPruning.Pruning
