import HostPruning.Proofs.Restarting

/-!
# Groups come down to one host

In an account that matching divides into groups a run leaves the hosts without a filter and of
each group the one that outranks all others. Which host of a group is scanned first, and in
which pages, makes no difference. Everyone else of the group is removed in favour of the one that
stays, and their events say so, one for each (`Condensed`).

The run has to get there. It stops with an error at the first account whose stored policy is not
valid, so the policies that matter are the account's own and those of the accounts before it
(`removed_reaches`).
-/

namespace HostPruning

/-- Whether a host has facts that it can be matched by. -/
def Host.Filtered (host : Host) : Prop :=
  ∃ basis filter, FactFilter.ofHostFacts host.facts = .ok (some (basis, filter))

namespace Pruning

open Inventory Rehearsal

/-! ### How far a run gets -/

section Steps

variable {plan : Plan} {inventory : Inventory} {account : String}

/-- The steps for a host carry out what its scan decides. -/
theorem decisionsOf_hostSteps (plan : Plan) (inventory : Inventory) (host : Host) :
    decisionsOf (hostSteps plan inventory host) = verdicts plan inventory host := by
  unfold hostSteps verdicts
  cases FactFilter.ofHostFacts host.facts with
  | error defect => rfl
  | ok found =>
      cases found with
      | none => rfl
      | some pair =>
          obtain ⟨basis, filter⟩ := pair
          simp only [decisionsOf, List.filterMap_cons, Step.decision?, List.filterMap_map]
          exact List.filterMap_some

/-- The steps for some hosts carry out what judging them decides. -/
theorem decisionsOf_stepsFor (plan : Plan) (inventory : Inventory) (decided : List Decision)
    (pending : List Host) :
    decided ++ decisionsOf (stepsFor plan inventory decided pending) =
      pending.foldl (judge plan inventory) decided := by
  induction pending generalizing decided with
  | nil => exact List.append_nil decided
  | cons host rest inductionHypothesis =>
      have here : decided ++ decisionsOf (judgedSteps plan inventory decided host) =
          judge plan inventory decided host := by
        unfold judgedSteps judge
        split
        · exact List.append_nil decided
        · rw [decisionsOf_hostSteps]
      rw [stepsFor, decisionsOf_append, ← List.append_assoc, here, inductionHypothesis, List.foldl_cons]

/-- The steps of an account carry out its decisions, if there is room and its policy is valid. -/
theorem decisionsOf_accountSteps (roomy : plan.Roomy inventory) (valid : ValidPolicy inventory account) :
    decisionsOf (accountSteps plan inventory account) = accountDecisions plan inventory account := by
  have judged := decisionsOf_stepsFor plan inventory [] (inventory.hostsOf account)
  rw [← decisionsOf_filter_bare, bare_accountSteps_of_valid roomy valid]
  exact judged

/-- Steps of which none is a failure are all performed when nobody stops them and no event is refused. -/
theorem perform_smooth (eventTime : Nat → Recorder → Moment) (real : plan.options.dryRun = false)
    {steps : List Step} (smooth : Smooth steps) :
    let result := (unstopped eventTime).perform plan steps (Pass.blank plan (.fresh []))
    result.1 = .completed ∧ result.2.removals = decisionsOf steps := by
  intro result
  have unfailed : ∀ failure, ((listening Recorder.emitter (fun _ _ => false) eventTime).perform plan steps
      (Pass.blank plan (.fresh []))).1 ≠ .failed failure :=
    perform_unfailed real smooth (Or.inr fun _ _ => List.not_mem_nil) (Attending.blank plan [] none 0)
  have uninterrupted : result.1 ≠ .interrupted := perform_uninterrupted (fun _ => rfl) plan _ _
  have completed : result.1 = .completed := by
    cases ended : result.1 with
    | completed => rfl
    | interrupted => exact absurd ended uninterrupted
    | failed failure => exact absurd ended (unfailed failure)
  obtain ⟨carried, -, exactly, whole⟩ :=
    perform_carries_out (unstopped eventTime) real steps (Pass.blank plan (.fresh []))
  rw [whole completed] at exactly
  exact ⟨completed, exactly⟩

/-- The decisions of accounts in a row are carried out before anything behind them fails. -/
theorem removed_reaches (eventTime : Nat → Recorder → Moment) (roomy : plan.Roomy inventory)
    (real : plan.options.dryRun = false) (first others : List String)
    (accounts : inventory.accounts = first ++ others)
    (valid : ∀ account ∈ first, ValidPolicy inventory account) :
    first.flatMap (accountDecisions plan inventory) <+:
      removed (unstopped eventTime).custody plan ⟨inventory, .fresh []⟩ := by
  let start : Inventory := { inventory with pageSizes := [] }
  let stepsOf : String → List Step := fun account => .enter :: accountSteps plan start account
  have roomyStart : plan.Roomy start := ⟨roomy.positive, roomy.enough⟩
  have smooth : Smooth (first.flatMap stepsOf) := by
    intro failure among
    obtain ⟨account, visited, here⟩ := List.mem_flatMap.1 among
    exact accountSteps_smooth roomyStart (valid account visited) failure
      ((List.mem_cons.1 here).resolve_left (by simp))
  have decided : decisionsOf (first.flatMap stepsOf) =
      first.flatMap (accountDecisions plan inventory) := by
    rw [decisionsOf, List.filterMap_flatMap]
    exact List.flatMap_congr fun account visited =>
      decisionsOf_accountSteps roomyStart (valid account visited)
  obtain ⟨completed, exactly⟩ := perform_smooth eventTime real smooth
  obtain ⟨-, removals, -, -⟩ := performed_performs (unstopped eventTime) plan inventory (.fresh [])
  have steps : runSteps plan start = first.flatMap stepsOf ++ others.flatMap stepsOf := by
    rw [← List.flatMap_append, ← accounts]
    rfl
  rw [removed, removals, steps, Outside.perform_append, ← decided, ← exactly]
  generalize (unstopped eventTime).perform plan (first.flatMap stepsOf) (Pass.blank plan (.fresh [])) =
    performed at completed
  obtain ⟨ending, pass⟩ := performed
  obtain rfl : ending = .completed := completed
  -- What is performed behind them only adds removals.
  obtain ⟨further, -, later, -⟩ :=
    perform_carries_out (unstopped eventTime) real (others.flatMap stepsOf) pass
  dsimp only
  rw [later]
  exact List.prefix_append _ _

end Steps

/-! ### What is left of an account, and what is heard -/

/-- Whether a host outranks all hosts of its account that it matches. -/
def Greatest (inventory : Inventory) (host : Host) : Prop :=
  ∀ other ∈ inventory.hostsOf host.account, host.Matches other → other = host ∨ host.Outranks other

/-- An account that is down to the hosts without a filter and one host of each group. -/
structure Condensed (inventory left : Inventory) (account : String)
    (heard : List (HostId × DeleteEvent)) : Prop where
  kept : ∀ host, host ∈ left.hostsOf account ↔
    host ∈ inventory.hostsOf account ∧ (¬ host.Filtered ∨ Greatest inventory host)
  /-- Of the group of a host with a filter just one host is left. -/
  one : ∀ host ∈ inventory.hostsOf account, host.Filtered →
    ∃ best, (best ∈ left.hostsOf account ∧ host.Matches best) ∧
      ∀ other ∈ left.hostsOf account, host.Matches other → other = best
  /-- Nothing is heard of the hosts left. -/
  silent : ∀ host ∈ left.hostsOf account, ∀ entry ∈ heard, entry.1 ≠ host.id
  /-- Of every other host one event is heard, which names the host left of its group. -/
  told : ∀ host ∈ inventory.hostsOf account, host ∉ left.hostsOf account →
    ∃ best ∈ left.hostsOf account, host.Matches best ∧
      (heard.filter fun entry => entry.1 = host.id) =
        [(host.id, DeleteEvent.ofDuplicate host best.id (.ofUnixSeconds 0))]

section Groups

variable {plan : Plan} {inventory : Inventory} {account : String} {host : Host}

theorem Greatest.of_unoutranked (present : host ∈ inventory.hosts)
    (best : ∀ other ∈ inventory.hostsOf host.account, host.Matches other → ¬ other.Outranks host) :
    Greatest inventory host := by
  intro other otherIn matched
  by_cases same : other.id = host.id
  · exact Or.inl (inventory.distinctIds.eq_of_id (mem_hostsOf.1 otherIn).1 present same)
  · exact Or.inr ((Host.outranks_total same).resolve_left (best other otherIn matched))

/-- With culled hosts included, an account of groups keeps the hosts without a filter and the
greatest of the others. -/
theorem mem_left_iff (everyone : plan.options.excludeCulled = false)
    (grouped : inventory.Grouped account) :
    host ∈ (inventory.after (accountDecisions plan inventory account)).hostsOf account ↔
      host ∈ inventory.hostsOf account ∧ (¬ host.Filtered ∨ Greatest inventory host) := by
  have competes : ∀ other, plan.Competes inventory other := fun other exclude => by
    simp [everyone] at exclude
  rw [mem_hostsOf_after]
  refine and_congr_right fun present => ?_
  obtain ⟨stored, rfl⟩ := mem_hostsOf.1 present
  rw [mem_duplicateIds_iff grouped present]
  constructor
  · intro kept
    refine Or.inr (.of_unoutranked stored fun other otherIn matched above => ?_)
    exact kept ⟨competes host, other, otherIn, matched, competes other, above⟩
  · rintro (unfiltered | greatest) ⟨-, other, otherIn, matched, -, above⟩
    · obtain ⟨basis, filter, made, -⟩ := matched
      exact unfiltered ⟨basis, filter, made⟩
    · rcases greatest other otherIn matched with rfl | below
      · exact other.not_outranks_self above
      · exact host.not_outranks_self (below.trans above)

/-- Two greatest hosts that one host matches are the same. -/
theorem Greatest.eq {left right : Host} (grouped : inventory.Grouped account)
    (present : host ∈ inventory.hostsOf account) (leftIn : left ∈ inventory.hostsOf account)
    (rightIn : right ∈ inventory.hostsOf account) (leftMatched : host.Matches left)
    (rightMatched : host.Matches right) (leftGreatest : Greatest inventory left)
    (rightGreatest : Greatest inventory right) : left = right := by
  have across : left.Matches right := grouped.trans left leftIn host present right rightIn
    (grouped.symm host present left leftIn leftMatched) rightMatched
  have back : right.Matches left := grouped.symm left leftIn right rightIn across
  have leftHere := (mem_hostsOf.1 leftIn).2
  have rightHere := (mem_hostsOf.1 rightIn).2
  rcases leftGreatest right (leftHere.symm ▸ rightIn) across with same | below
  · exact same.symm
  · rcases rightGreatest left (rightHere.symm ▸ leftIn) back with same | above
    · exact same
    · exact absurd (below.trans above) left.not_outranks_self

/-- Whoever is foremost for a host of the account stays. -/
theorem Foremost.left {leader : Host} (foremost : Foremost plan inventory host leader)
    (grouped : inventory.Grouped account) (present : host ∈ inventory.hostsOf account) :
    leader ∈ (inventory.after (accountDecisions plan inventory account)).hostsOf account := by
  obtain ⟨stored, rfl⟩ := mem_hostsOf.1 present
  exact mem_hostsOf_after.2 ⟨foremost.stored, foremost.kept grouped stored⟩

/-- Of the group of a host just one host is left. -/
theorem exists_left (everyone : plan.options.excludeCulled = false)
    (grouped : inventory.Grouped account) (present : host ∈ inventory.hostsOf account)
    (filtered : host.Filtered) :
    ∃ best, (best ∈ (inventory.after (accountDecisions plan inventory account)).hostsOf account ∧
        host.Matches best) ∧
      ∀ other ∈ (inventory.after (accountDecisions plan inventory account)).hostsOf account,
        host.Matches other → other = best := by
  obtain ⟨basis, filter, made⟩ := filtered
  have competes : plan.Competes inventory host := fun exclude => by simp [everyone] at exclude
  obtain ⟨leader, foremost⟩ := exists_foremost
    (mem_hostsOf.2 ⟨(mem_hostsOf.1 present).1, rfl⟩) (.self made) competes
  have greatest : ∀ {other : Host},
      other ∈ (inventory.after (accountDecisions plan inventory account)).hostsOf account →
        host.Matches other → other ∈ inventory.hostsOf account ∧ Greatest inventory other := by
    intro other otherLeft matched
    obtain ⟨otherIn, either⟩ := (mem_left_iff everyone grouped).1 otherLeft
    obtain ⟨basis', filter', made', -⟩ := grouped.symm host present other otherIn matched
    exact ⟨otherIn, either.resolve_left (not_not_intro ⟨basis', filter', made'⟩)⟩
  have leaderLeft := foremost.left grouped present
  refine ⟨leader, ⟨leaderLeft, foremost.matched⟩, fun other otherLeft matched => ?_⟩
  obtain ⟨otherIn, otherGreatest⟩ := greatest otherLeft matched
  obtain ⟨leaderIn, leaderGreatest⟩ := greatest leaderLeft foremost.matched
  exact Greatest.eq grouped present otherIn leaderIn matched foremost.matched otherGreatest
    leaderGreatest

/-- A decision is among those of the account it is about. -/
theorem mem_accountDecisions_of_mem {decision : Decision}
    (among : decision ∈ plan.decisions inventory) :
    decision ∈ accountDecisions plan inventory decision.duplicate.account := by
  obtain ⟨account, -, decided⟩ := List.mem_flatMap.1 among
  obtain ⟨-, here⟩ := mem_hostsOf.1 (accountDecisions_within decided).1
  exact here ▸ decided

/-- Removals of all that an account calls for leave it as if nothing else was called for. -/
theorem agree_of_reached {removals : List Decision} (ahead : removals <+: plan.decisions inventory)
    (all : accountDecisions plan inventory account ⊆ removals) :
    (inventory.after removals).Agree account
      (inventory.after (accountDecisions plan inventory account)) := by
  refine agree_of_own all fun removal among => ?_
  have decided := mem_accountDecisions_of_mem (ahead.subset among)
  exact ⟨(mem_hostsOf.1 (accountDecisions_within decided).1).1, fun same => same ▸ decided⟩

/-- Of removals that name no host twice, one event is heard of each. -/
theorem filter_deliveries {removals : List Decision} (once : (duplicateIds removals).Nodup)
    {removal : Decision} (among : removal ∈ removals) :
    ((deliveries [] removals).filter fun entry => entry.1 = removal.duplicate.id) =
      [(removal.duplicate.id, DeleteEvent.ofDuplicate removal.duplicate removal.survivor.id
        (.ofUnixSeconds 0))] := by
  obtain ⟨before, after, rfl⟩ := List.append_of_mem among
  rw [duplicateIds_append] at once
  obtain ⟨-, rest, apart⟩ := List.nodup_append.1 once
  have none : ∀ others : List Decision, removal.duplicate.id ∉ duplicateIds others →
      ((deliveries [] others).filter fun entry => entry.1 = removal.duplicate.id) = [] := by
    intro others unnamed
    refine List.filter_eq_nil_iff.2 fun entry present same => unnamed ?_
    obtain ⟨other, taken, rfl⟩ := List.mem_map.1 present
    rw [← of_decide_eq_true same]
    exact List.mem_map_of_mem (List.mem_filter.1 taken).1
  have inFront : removal.duplicate.id ∉ duplicateIds before := fun named =>
    apart _ named _ List.mem_cons_self rfl
  have behind : removal.duplicate.id ∉ duplicateIds after := (List.nodup_cons.1 rest).1
  have own : deliveries [] (removal :: after) = (removal.duplicate.id,
      DeleteEvent.ofDuplicate removal.duplicate removal.survivor.id (.ofUnixSeconds 0)) ::
        deliveries [] after := rfl
  rw [deliveries_append, List.filter_append, none before inFront, own,
    List.filter_cons_of_pos (by simp), none after behind, List.nil_append]

/-- What removals of all an account calls for come to. -/
theorem condensed_of_removals (everyone : plan.options.excludeCulled = false)
    (grouped : inventory.Grouped account) {removals : List Decision}
    (ahead : removals <+: plan.decisions inventory)
    (all : accountDecisions plan inventory account ⊆ removals) {left : Inventory}
    (hosts : left.hosts = (inventory.after removals).hosts) :
    Condensed inventory left account (deliveries [] removals) := by
  have removalHosts : left.hostsOf account = (inventory.after removals).hostsOf account := by
    rw [Inventory.hostsOf, hosts]
    rfl
  have leftHosts := removalHosts.trans (agree_of_reached ahead all).hosts
  have unnamed : ∀ {host}, host ∈ left.hostsOf account ↔
      host ∈ inventory.hostsOf account ∧ host.id ∉ duplicateIds removals := by
    intro host
    rw [removalHosts, mem_hostsOf_after]
  refine ⟨fun host => ?_, fun host present filtered => ?_, ?_, ?_⟩
  · rw [leftHosts]
    exact mem_left_iff everyone grouped
  · rw [leftHosts]
    exact exists_left everyone grouped present filtered
  · intro host present entry among same
    obtain ⟨removal, taken, rfl⟩ := List.mem_map.1 among
    refine (unnamed.1 present).2 ?_
    rw [← same]
    exact List.mem_map_of_mem (List.mem_filter.1 taken).1
  · intro host present gone
    have named : host.id ∈ duplicateIds removals :=
      Classical.byContradiction fun kept => gone (unnamed.2 ⟨present, kept⟩)
    obtain ⟨removal, among, same⟩ := List.mem_map.1 named
    have lossless := (outranked_of_ahead ahead).lossless
    have duplicate : removal.duplicate = host := inventory.distinctIds.eq_of_id
      (lossless.outranked.stored among).1 (mem_hostsOf.1 present).1 same
    have decided := mem_accountDecisions_of_mem (ahead.subset among)
    rw [duplicate, (mem_hostsOf.1 present).2] at decided
    obtain ⟨foremost, matched⟩ := foremost_survivor grouped decided
    have heard := filter_deliveries lossless.once among
    rw [duplicate] at matched heard
    rw [leftHosts]
    exact ⟨removal.survivor, foremost.left grouped (accountDecisions_within decided).2, matched, heard⟩

end Groups

/-! ### Runs -/

section Runs

variable {plan : Plan} {inventory : Inventory} {account : String}

/-- A run brings the groups of an account down to one host each. Let a real run with culled hosts
included, which nobody stops and whose events are all taken, get to an account: the policies stored for
it and for the accounts before it are valid. If matching is symmetric and transitive in the account,
as it is where all hosts are well-formed and have a provider identifier that is not empty, matching
then being equality of that identifier, the hosts left in the account are those without a filter and
the greatest of each group, and of each other host one event is heard. -/
theorem run_condenses (eventTime : Nat → Recorder → Moment) (roomy : plan.Roomy inventory)
    (real : plan.options.dryRun = false) (everyone : plan.options.excludeCulled = false)
    (valid : ∀ other ∈ inventory.accounts, ¬ account < other → ValidPolicy inventory other) :
    let result := run (unstopped eventTime).custody.toSurroundings plan ⟨inventory, .fresh []⟩
    (inventory.Grouped account →
        Condensed inventory result.2.inventory account result.2.world.mail.heard) ∧
      ((∀ host ∈ inventory.hostsOf account, ∃ provider, host.Provided provider) →
        inventory.Grouped account ∧
          ∀ host ∈ inventory.hostsOf account, ∀ other ∈ inventory.hostsOf account,
            (host.Matches other ↔
              host.facts.get? "provider_id" = other.facts.get? "provider_id")) := by
  intro result
  refine ⟨fun grouped => ?_, fun provided => grouped_of_provided provided⟩
  have ahead : removed (unstopped eventTime).custody plan ⟨inventory, .fresh []⟩ <+:
      plan.decisions inventory := prefix_removed (unstopped eventTime).custody plan _
  obtain ⟨hosts, -⟩ := inventory_run (unstopped eventTime) plan inventory (.fresh [])
  obtain ⟨heard, -, -, -⟩ := run_attending (fun _ _ => false) eventTime plan inventory [] none
  have all : accountDecisions plan inventory account ⊆
      removed (unstopped eventTime).custody plan ⟨inventory, .fresh []⟩ := by
    intro decision among
    obtain ⟨stored, here⟩ := mem_hostsOf.1 (accountDecisions_within among).1
    have listed : account ∈ inventory.accounts := mem_accounts.2 ⟨_, stored, here⟩
    obtain ⟨before, others, accounts⟩ := List.append_of_mem listed
    have ascending : (before ++ account :: others).Pairwise (· < ·) :=
      accounts ▸ ascendingDistinct_pairwise _
    have reached := removed_reaches eventTime roomy real (before ++ [account]) others
      (by rw [accounts, List.append_assoc, List.singleton_append])
      (fun other visited => by
        have notLater : ¬ account < other := by
          rcases List.mem_append.1 visited with earlier | here
          · have above := (List.pairwise_append.1 ascending).2.2 other earlier account
              List.mem_cons_self
            exact fun below => AscendingKey.irrefl other (AscendingKey.trans above below)
          · rw [List.mem_singleton.1 here]
            exact AscendingKey.irrefl account
        refine valid other ?_ notLater
        rw [accounts]
        simp only [List.mem_append, List.mem_cons] at visited ⊢
        tauto)
    exact reached.subset (List.mem_flatMap.2 ⟨account, by simp, among⟩)
  have condensed := condensed_of_removals everyone grouped ahead all hosts
  have recorded : result.2.world.mail.heard =
      deliveries [] (removed (unstopped eventTime).custody plan ⟨inventory, .fresh []⟩) := heard
  rw [recorded]
  exact condensed

/-- A host of one account with a provider identifier, modified some seconds after the others'
epoch. -/
def providedHost (id : HostId) (provider : String) (offset : Int) : Host :=
  Inventory.exampleHost id "acct-1" (.object [("provider_id", .string provider)]) offset

/-- Three hosts, of which the first and the second share a provider identifier. -/
def providedHosts : Inventory :=
  .ofHosts [providedHost (smallId 1) "p" 0, providedHost (smallId 2) "p" 1,
    providedHost (smallId 3) "q" 0]

theorem providedHost_provided (id : HostId) {provider : String} (offset : Int)
    (filled : provider ≠ "") : (providedHost id provider offset).Provided provider :=
  ⟨⟨_, rfl⟩, rfl, filled⟩

theorem providedHosts_provided :
    ∀ host ∈ providedHosts.hostsOf "acct-1", ∃ provider, host.Provided provider := by
  have hosts : providedHosts.hostsOf "acct-1" = [providedHost (smallId 1) "p" 0,
      providedHost (smallId 2) "p" 1, providedHost (smallId 3) "q" 0] := by rfl
  rw [hosts]
  intro host present
  simp only [List.mem_cons, List.not_mem_nil, or_false] at present
  rcases present with rfl | rfl | rfl
  · exact ⟨"p", providedHost_provided _ _ (by decide)⟩
  · exact ⟨"p", providedHost_provided _ _ (by decide)⟩
  · exact ⟨"q", providedHost_provided _ _ (by decide)⟩

/-- Of the two hosts that share a provider identifier the newer one is left. -/
theorem provided_hosts_condense :
    let result := run (unstopped fun _ _ => .ofUnixSeconds 0).custody.toSurroundings (calmPlan 1)
      ⟨providedHosts, .fresh []⟩
    (calmPlan 1).Roomy providedHosts ∧ (calmPlan 1).options.dryRun = false ∧
      (calmPlan 1).options.excludeCulled = false ∧ ValidPolicies providedHosts ∧
      Condensed providedHosts result.2.inventory "acct-1" result.2.world.mail.heard ∧
      result.2.inventory.hosts.map (fun host => host.id.value) = [2, 3] := by
  intro result
  have roomy : (calmPlan 1).Roomy providedHosts := ⟨by decide, by decide⟩
  have valid : ValidPolicies providedHosts := validPolicies_ofHosts _
  obtain ⟨condenses, groups⟩ := @run_condenses _ _ "acct-1" (fun _ _ => .ofUnixSeconds 0)
    roomy rfl rfl fun other listed _ => valid other listed
  exact ⟨roomy, rfl, rfl, valid, condenses (groups providedHosts_provided).1, by decide⟩

/-- The same hosts under a stored policy whose first offset is not positive. -/
def misruledHosts : Inventory :=
  { providedHosts with policies := .insert ∅ "acct-1" ⟨⟨0, 0, 0⟩, .edge⟩ }

/-- Under a policy that is not valid the account is left as it is. -/
theorem misruled_hosts_not_condensed :
    let result := run (unstopped fun _ _ => .ofUnixSeconds 0).custody.toSurroundings (calmPlan 1)
      ⟨misruledHosts, .fresh []⟩
    (calmPlan 1).Roomy misruledHosts ∧ (calmPlan 1).options.dryRun = false ∧
      (calmPlan 1).options.excludeCulled = false ∧ misruledHosts.Grouped "acct-1" ∧
      result.1 = .error (.setting (.offsets "conventional" .staleNotPositive)) ∧
      ¬ Condensed misruledHosts result.2.inventory "acct-1" result.2.world.mail.heard := by
  intro result
  have provided : ∀ host ∈ misruledHosts.hostsOf "acct-1", ∃ provider, host.Provided provider :=
    providedHosts_provided
  refine ⟨⟨by decide, by decide⟩, rfl, rfl, (grouped_of_provided provided).1, by rfl, fun condensed => ?_⟩
  have left : result.2.inventory.hostsOf "acct-1" = misruledHosts.hostsOf "acct-1" := by rfl
  have first : providedHost (smallId 1) "p" 0 ∈ misruledHosts.hostsOf "acct-1" := List.mem_cons_self
  have second : providedHost (smallId 2) "p" 1 ∈ misruledHosts.hostsOf "acct-1" :=
    List.mem_cons_of_mem _ List.mem_cons_self
  have shared := providedHost_provided (smallId 1) 0 (by decide : "p" ≠ "")
  have itself := shared.matches_iff.2 shared.stored
  obtain ⟨basis, filter, made, -⟩ := id itself
  obtain ⟨best, -, only⟩ := condensed.one _ first ⟨basis, filter, made⟩
  rw [left] at only
  have same := (only _ first itself).trans (only _ second (shared.matches_iff.2 rfl)).symm
  exact absurd (congrArg Host.id same) (by decide)

end Runs

end Pruning

end HostPruning
