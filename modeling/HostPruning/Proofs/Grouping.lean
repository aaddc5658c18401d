import HostPruning.Proofs.Criteria
import HostPruning.Proofs.Settling

/-!
# Accounts that fall into groups

A host matches another when its filter accepts the other's facts. In general this is neither
symmetric nor transitive, and what a scan decides then depends on who is scanned first. Where
it is both (`Grouped`) the order does not matter: whoever of a group is scanned leads to the
same host, the `Foremost` of its group. That one is never removed, and whoever else of the group
competes is (`mem_duplicateIds_iff`).

Hosts that all have a provider identifier are such an account (`Inventory.grouped_of_provided`): the other
elevated facts are suppressed, the regular ones do not count, and equal texts are an equivalence.
-/

namespace HostPruning

/-- Whether a host has a filter and another's facts satisfy it. -/
def Host.Matches (host other : Host) : Prop :=
  ∃ basis filter, FactFilter.ofHostFacts host.facts = .ok (some (basis, filter)) ∧
    filter.accepts other.facts = true

namespace Host.Matches

variable {host other : Host} {basis : Facts.Basis} {filter : FactFilter}

/-- A host with a filter matches itself. -/
theorem self (made : FactFilter.ofHostFacts host.facts = .ok (some (basis, filter))) :
    host.Matches host :=
  ⟨basis, filter, made, FactFilter.accepts_self made⟩

/-- A host has one filter. -/
theorem accepts (matched : host.Matches other)
    (made : FactFilter.ofHostFacts host.facts = .ok (some (basis, filter))) :
    filter.accepts other.facts = true := by
  obtain ⟨basis', filter', made', accepted⟩ := matched
  rw [made] at made'
  cases made'
  exact accepted

end Host.Matches

/-- Whether matching divides the hosts of an account into groups. -/
structure Inventory.Grouped (inventory : Inventory) (account : String) : Prop where
  symm : ∀ host ∈ inventory.hostsOf account, ∀ other ∈ inventory.hostsOf account,
    host.Matches other → other.Matches host
  trans : ∀ first ∈ inventory.hostsOf account, ∀ second ∈ inventory.hostsOf account,
    ∀ third ∈ inventory.hostsOf account,
      first.Matches second → second.Matches third → first.Matches third

/-- Fewer hosts make fewer or smaller groups. -/
theorem Inventory.Grouped.after {inventory : Inventory} {account : String}
    (grouped : inventory.Grouped account) (decisions : List Pruning.Decision) :
    (inventory.after decisions).Grouped account where
  symm host present other otherPresent :=
    grouped.symm host (mem_hostsOf_after.1 present).1 other (mem_hostsOf_after.1 otherPresent).1
  trans first firstIn second secondIn third thirdIn :=
    grouped.trans first (mem_hostsOf_after.1 firstIn).1 second (mem_hostsOf_after.1 secondIn).1
      third (mem_hostsOf_after.1 thirdIn).1

namespace Pruning

open Inventory

/-- Whether a host takes part: culled hosts are left alone on request. -/
def Plan.Competes (plan : Plan) (inventory : Inventory) (host : Host) : Prop :=
  plan.options.excludeCulled = true →
    (plan.clockFor inventory host.account).isCulled host = false

/-- The best of the hosts that a host matches. -/
structure Foremost (plan : Plan) (inventory : Inventory) (host leader : Host) : Prop where
  stored : leader ∈ inventory.hostsOf host.account
  matched : host.Matches leader
  competes : plan.Competes inventory leader
  above : ∀ other ∈ inventory.hostsOf host.account, host.Matches other →
    plan.Competes inventory other → other = leader ∨ leader.Outranks other

variable {plan : Plan} {inventory : Inventory} {account : String} {host other : Host}

/-- The rivals under a host's filter are the hosts it matches that compete. -/
theorem mem_rivals_iff_matches {basis : Facts.Basis} {filter : FactFilter}
    (made : FactFilter.ofHostFacts host.facts = .ok (some (basis, filter))) :
    other ∈ rivals plan inventory host.account filter ↔
      other ∈ inventory.hostsOf host.account ∧ host.Matches other ∧
        plan.Competes inventory other := by
  rw [mem_rivals, mem_hostsOf]
  constructor
  · rintro ⟨⟨stored, here⟩, accepted, kept⟩
    refine ⟨⟨stored, here⟩, ⟨basis, filter, made, accepted⟩, ?_⟩
    rwa [Plan.Competes, here]
  · rintro ⟨⟨stored, here⟩, matched, competes⟩
    rw [Plan.Competes, here] at competes
    exact ⟨⟨stored, here⟩, matched.accepts made, competes⟩

/-- Some host leads those that a host matches, if any. -/
theorem exists_foremost (stored : other ∈ inventory.hostsOf host.account) (matched : host.Matches other)
    (competes : plan.Competes inventory other) : ∃ leader, Foremost plan inventory host leader := by
  obtain ⟨basis, filter, made, -⟩ := id matched
  have rival := (mem_rivals_iff_matches made).2 ⟨stored, matched, competes⟩
  have ranked := inSurvivorOrder_outranks (rivals_distinct plan inventory host.account filter)
  have listed : ∀ candidate, candidate ∈ inSurvivorOrder (rivals plan inventory host.account filter) ↔
      candidate ∈ inventory.hostsOf host.account ∧ host.Matches candidate ∧
        plan.Competes inventory candidate := fun candidate =>
    mem_inSurvivorOrder.trans (mem_rivals_iff_matches made)
  rw [← mem_inSurvivorOrder] at rival
  cases sorted : inSurvivorOrder (rivals plan inventory host.account filter) with
  | nil =>
      rw [sorted] at rival
      cases rival
  | cons leader others =>
      rw [sorted] at ranked listed
      obtain ⟨leaderStored, leaderMatched, leaderCompetes⟩ := (listed leader).1 List.mem_cons_self
      refine ⟨leader, leaderStored, leaderMatched, leaderCompetes, ?_⟩
      intro candidate candidateStored candidateMatched candidateCompetes
      have among := (listed candidate).2 ⟨candidateStored, candidateMatched, candidateCompetes⟩
      exact (List.mem_cons.1 among).imp_right ((List.pairwise_cons.1 ranked).1 candidate)

/-- What a removal in an account tells of the hosts it is about. -/
theorem exists_matches_of_named (present : host ∈ inventory.hostsOf account)
    (named : host.id ∈ duplicateIds (accountDecisions plan inventory account)) :
    ∃ scanned ∈ inventory.hostsOf account, ∃ survivor ∈ inventory.hostsOf account,
      scanned.Matches host ∧ scanned.Matches survivor ∧ plan.Competes inventory host ∧
        plan.Competes inventory survivor ∧ survivor.Outranks host := by
  obtain ⟨decision, among, sameId⟩ := List.mem_map.1 named
  obtain ⟨before, after, split⟩ := List.append_of_mem among
  obtain ⟨earlier, group, filter, -, here, arises⟩ := arises_of_account split
  obtain ⟨duplicateStored, scannedStored⟩ := accountDecisions_within among
  obtain rfl : decision.duplicate = host := inventory.distinctIds.eq_of_id
    (mem_hostsOf.1 duplicateStored).1 (mem_hostsOf.1 present).1 sameId
  obtain ⟨basis, made⟩ := arises.made
  obtain ⟨-, duplicateMatched, duplicateCompetes⟩ :=
    (mem_rivals_iff_matches made).1 arises.duplicate_rival
  obtain ⟨survivorStored, survivorMatched, survivorCompetes⟩ :=
    (mem_rivals_iff_matches made).1 arises.survivor_rival
  obtain ⟨stored, survivorHere⟩ := mem_hostsOf.1 survivorStored
  exact ⟨decision.scanned, scannedStored, decision.survivor,
    mem_hostsOf.2 ⟨(mem_after.1 stored).1, survivorHere.trans here⟩, duplicateMatched,
    survivorMatched, duplicateCompetes, survivorCompetes, arises.outranks⟩

/-- Whoever leads some host's group stays: what removed it would be of the group as well, and
above it. -/
theorem Foremost.kept {leader : Host} (foremost : Foremost plan inventory host leader)
    (grouped : inventory.Grouped host.account) (present : host ∈ inventory.hosts) :
    leader.id ∉ duplicateIds (accountDecisions plan inventory host.account) := by
  intro named
  obtain ⟨scanned, scannedIn, survivor, survivorIn, linked, survivorLinked, -, competes, above⟩ :=
    exists_matches_of_named foremost.stored named
  have hostIn : host ∈ inventory.hostsOf host.account := mem_hostsOf.2 ⟨present, rfl⟩
  have back := grouped.symm scanned scannedIn leader foremost.stored linked
  have toScanned := grouped.trans host hostIn leader foremost.stored scanned scannedIn foremost.matched back
  have toSurvivor := grouped.trans host hostIn scanned scannedIn survivor survivorIn toScanned
    survivorLinked
  rcases foremost.above survivor survivorIn toSurvivor competes with rfl | below
  · exact survivor.not_outranks_self above
  · exact leader.not_outranks_self (below.trans above)

/-- In an account of groups the survivor of a removal is the foremost of the group. -/
theorem foremost_survivor (grouped : inventory.Grouped account) {decision : Decision}
    (among : decision ∈ accountDecisions plan inventory account) :
    Foremost plan inventory decision.scanned decision.survivor ∧
      decision.duplicate.Matches decision.survivor := by
  obtain ⟨before, after, split⟩ := List.append_of_mem among
  obtain ⟨earlier, group, filter, rfl, here, arises⟩ := arises_of_account split
  obtain ⟨duplicateIn, scannedIn⟩ := accountDecisions_within among
  obtain ⟨basis, made⟩ := arises.made
  obtain ⟨duplicateLeft, duplicateMatched, duplicateCompetes⟩ :=
    (mem_rivals_iff_matches made).1 arises.duplicate_rival
  obtain ⟨survivorLeft, survivorMatched, survivorCompetes⟩ :=
    (mem_rivals_iff_matches made).1 arises.survivor_rival
  have survivorIn := (mem_hostsOf_after.1 survivorLeft).1
  obtain ⟨leader, foremost⟩ := exists_foremost (mem_hostsOf_after.1 duplicateLeft).1
    duplicateMatched duplicateCompetes
  -- The foremost is still there at this scan, and nobody there is above the survivor.
  have unnamed : leader.id ∉ duplicateIds earlier := by
    intro named
    refine foremost.kept (here ▸ grouped) (mem_hostsOf.1 scannedIn).1 ?_
    rw [here, split, List.append_assoc]
    exact mem_duplicateIds_mono (List.prefix_append _ _) named
  have leaderLeft := mem_hostsOf_after.2 ⟨foremost.stored, unnamed⟩
  have rival : leader ∈ rivals plan (inventory.after earlier) decision.scanned.account filter :=
    (mem_rivals_iff_matches made).2 ⟨leaderLeft, foremost.matched, foremost.competes⟩
  have same : decision.survivor = leader := by
    rcases foremost.above _ survivorIn survivorMatched survivorCompetes with equal | below
    · exact equal
    · rcases arises.survivor_outranks rival with equal | above
      · exact equal.symm
      · exact absurd (above.trans below) decision.survivor.not_outranks_self
  rw [same] at survivorMatched ⊢
  rw [here] at duplicateLeft survivorIn
  refine ⟨foremost, ?_⟩
  have leaderIn := foremost.stored
  rw [here] at leaderIn
  exact grouped.trans _ duplicateIn _ scannedIn _ leaderIn
    (grouped.symm _ scannedIn _ duplicateIn duplicateMatched) survivorMatched

/-- In an account of groups a host is removed exactly if it competes and one of its group that
competes outranks it, in whatever order the hosts are scanned. -/
theorem mem_duplicateIds_iff (grouped : inventory.Grouped account)
    (present : host ∈ inventory.hostsOf account) :
    host.id ∈ duplicateIds (accountDecisions plan inventory account) ↔
      plan.Competes inventory host ∧ ∃ other ∈ inventory.hostsOf account, host.Matches other ∧
        plan.Competes inventory other ∧ other.Outranks host := by
  obtain ⟨stored, rfl⟩ := mem_hostsOf.1 present
  constructor
  · intro named
    obtain ⟨scanned, scannedIn, survivor, survivorIn, linked, survivorLinked, hostCompetes,
      competes, above⟩ := exists_matches_of_named present named
    have back := grouped.symm scanned scannedIn host present linked
    exact ⟨hostCompetes, survivor, survivorIn,
      grouped.trans host present scanned scannedIn survivor survivorIn back survivorLinked,
      competes, above⟩
  · rintro ⟨hostCompetes, other, otherIn, matched, competes, above⟩
    obtain ⟨leader, foremost⟩ := exists_foremost otherIn matched competes
    have leaderAbove : leader.Outranks host := by
      rcases foremost.above other otherIn matched competes with rfl | below
      · exact above
      · exact below.trans above
    obtain ⟨basis, filter, made, -⟩ := matched
    -- Were both to stay, the host's own scan would have left two rivals.
    refine Classical.byContradiction fun kept => ?_
    have remains : ∀ candidate ∈ inventory.hostsOf host.account, host.Matches candidate →
        plan.Competes inventory candidate →
        candidate.id ∉ duplicateIds (accountDecisions plan inventory host.account) →
          candidate ∈ rivals plan (inventory.after (accountDecisions plan inventory host.account))
            host.account filter := by
      intro candidate candidateIn candidateMatched candidateCompetes unnamed
      exact (mem_rivals_iff_matches made).2
        ⟨mem_hostsOf_after.2 ⟨candidateIn, unnamed⟩, candidateMatched, candidateCompetes⟩
    have same := foldl_judge_undisputed present kept made
      host (remains host present (.self made) hostCompetes kept)
      leader (remains leader foremost.stored foremost.matched foremost.competes (foremost.kept grouped stored))
    rw [← same] at leaderAbove
    exact host.not_outranks_self leaderAbove

end Pruning

/-! ### Provider identifiers -/

/-- A host with well-formed facts, among them a provider identifier that is not empty. -/
structure Host.Provided (host : Host) (provider : String) : Prop where
  wellFormed : ∃ facts, Facts.parse host.facts = .ok facts
  stored : host.facts.get? "provider_id" = some (.string provider)
  filled : provider ≠ ""

namespace Host.Provided

variable {host other : Host} {provider : String}

/-- A host with a provider identifier matches those with the same. -/
theorem matches_iff (provided : host.Provided provider) :
    host.Matches other ↔ other.facts.get? "provider_id" = some (.string provider) := by
  obtain ⟨facts, parsed⟩ := provided.wellFormed
  obtain ⟨basis, filter, made⟩ :=
    FactFilter.exists_ofHostFacts parsed ⟨_, by decide, Facts.has_of_stored provided.stored⟩
  rw [← Facts.fits_of_provider provided.stored provided.filled, ← FactFilter.accepts_iff_fits made]
  exact ⟨fun matched => matched.accepts made, fun accepted => ⟨basis, filter, made, accepted⟩⟩

end Host.Provided

/-- An account whose hosts all have a provider identifier falls into groups, by that identifier. -/
theorem Inventory.grouped_of_provided {inventory : Inventory} {account : String}
    (provided : ∀ host ∈ inventory.hostsOf account, ∃ provider, host.Provided provider) :
    inventory.Grouped account ∧
      ∀ host ∈ inventory.hostsOf account, ∀ other ∈ inventory.hostsOf account,
        (host.Matches other ↔
          host.facts.get? "provider_id" = other.facts.get? "provider_id") := by
  have same : ∀ host ∈ inventory.hostsOf account, ∀ other,
      (host.Matches other ↔ host.facts.get? "provider_id" = other.facts.get? "provider_id") := by
    intro host present other
    obtain ⟨provider, has⟩ := provided host present
    rw [has.matches_iff, has.stored, eq_comm]
  refine ⟨⟨?_, ?_⟩, fun host present other _ => same host present other⟩
  · intro host present other otherPresent matched
    exact (same other otherPresent host).2 ((same host present other).1 matched).symm
  · intro first firstIn second secondIn third _ upper lower
    exact (same first firstIn third).2
      (((same first firstIn second).1 upper).trans ((same second secondIn third).1 lower))

end HostPruning
