import HostPruning.Pruning.Run
import HostPruning.Proofs.Collections
import HostPruning.Proofs.Outranking

/-!
# The decisions an inventory calls for

`Plan.decisions` says what a run decides when nothing interrupts it, as a function of the
inventory alone: no pages, no calls, no state. Each account's hosts are judged once, in
ascending order of their identifiers, against the inventory without the duplicates found
so far. A dry run and a real one decide alike, since only the decisions shrink the
inventory a host is judged against.

`Arises` is the anatomy of one decision: which decisions were made before its host was
scanned, which for the same host, and whom its survivor was chosen from. `exists_arises`
finds it for every decision, so a property of decisions is proved from one scan and not by
another induction over the run.
-/

namespace HostPruning

namespace Pruning

/-- The identifiers of the duplicates that decisions name. -/
def duplicateIds (decisions : List Decision) : List HostId :=
  decisions.map fun decision => decision.duplicate.id

@[simp]
theorem duplicateIds_append (first second : List Decision) :
    duplicateIds (first ++ second) = duplicateIds first ++ duplicateIds second :=
  List.map_append

theorem mem_duplicateIds_mono {first second : List Decision} {id : HostId}
    (ahead : first <+: second) (among : id ∈ duplicateIds first) : id ∈ duplicateIds second := by
  obtain ⟨rest, rfl⟩ := ahead
  rw [duplicateIds_append]
  exact List.mem_append_left _ among

end Pruning

open Pruning

namespace Inventory

/-- The inventory without the duplicates that decisions name. -/
def after (inventory : Inventory) (decisions : List Decision) : Inventory :=
  { inventory with
    hosts := inventory.hosts.filter fun host => host.id ∉ duplicateIds decisions
    ascending := inventory.ascending.filter _ }

@[ext]
theorem ext {left right : Inventory} (hosts : left.hosts = right.hosts)
    (policies : left.policies = right.policies) (pageSizes : left.pageSizes = right.pageSizes) :
    left = right := by
  cases left
  cases right
  cases hosts
  cases policies
  cases pageSizes
  rfl

/-- No two hosts of an inventory share an identifier. -/
theorem distinctIds (inventory : Inventory) : DistinctIds inventory.hosts := by
  refine inventory.ascending.imp ?_
  intro earlier later before same
  exact AscendingKey.irrefl later.id (same ▸ before)

@[simp]
theorem mem_after {inventory : Inventory} {decisions : List Decision} {host : Host} :
    host ∈ (inventory.after decisions).hosts ↔
      host ∈ inventory.hosts ∧ host.id ∉ duplicateIds decisions := by
  simp [after]

@[simp]
theorem after_nil (inventory : Inventory) : inventory.after [] = inventory := by
  ext1 <;> simp [after, duplicateIds]

/-- What is left goes by who is removed. -/
theorem after_congr (inventory : Inventory) {first second : List Decision}
    (same : ∀ id, id ∈ duplicateIds first ↔ id ∈ duplicateIds second) :
    inventory.after first = inventory.after second := by
  ext1
  · simp only [after, same]
  · rfl
  · rfl

/-- Removals add up. -/
theorem after_append (inventory : Inventory) (first second : List Decision) :
    inventory.after (first ++ second) = (inventory.after first).after second := by
  ext1
  · simp only [after, List.filter_filter, duplicateIds_append, List.mem_append, not_or,
      Bool.decide_and, Bool.and_comm]
  · rfl
  · rfl

/-- Erasing a duplicate is one removal more. -/
theorem erase_after (inventory : Inventory) (decisions : List Decision) (decision : Decision) :
    (inventory.after decisions).erase decision.duplicate.id =
      inventory.after (decisions ++ [decision]) := by
  rw [after_append]
  ext1
  · simp [after, erase, duplicateIds]
  · rfl
  · rfl

/-- A host that no decision names is still contained. -/
theorem contains_of_mem {inventory : Inventory} {host : Host} (present : host ∈ inventory.hosts) :
    inventory.contains host.id = true :=
  List.any_eq_true.2 ⟨host, present, by simp⟩

@[simp]
theorem mem_hostsOf {inventory : Inventory} {account : String} {host : Host} :
    host ∈ inventory.hostsOf account ↔ host ∈ inventory.hosts ∧ host.account = account := by
  simp [hostsOf]

theorem hostsOf_after (inventory : Inventory) (decisions : List Decision) (account : String) :
    (inventory.after decisions).hostsOf account =
      (inventory.hostsOf account).filter fun host => host.id ∉ duplicateIds decisions := by
  simp only [hostsOf, after, List.filter_filter, Bool.and_comm]

theorem mem_hostsOf_after {inventory : Inventory} {decisions : List Decision} {account : String}
    {host : Host} : host ∈ (inventory.after decisions).hostsOf account ↔
      host ∈ inventory.hostsOf account ∧ host.id ∉ duplicateIds decisions := by
  rw [hostsOf_after, List.mem_filter, decide_eq_true_eq]

theorem hostsOf_after_congr {left right : Inventory} {account : String}
    (hosts : left.hostsOf account = right.hostsOf account) (decisions : List Decision) :
    (left.after decisions).hostsOf account = (right.after decisions).hostsOf account := by
  rw [hostsOf_after, hostsOf_after, hosts]

/-- Whether two inventories hold the same for an account: its hosts and its policy. -/
structure Agree (left : Inventory) (account : String) (right : Inventory) : Prop where
  hosts : left.hostsOf account = right.hostsOf account
  policy : left.policies.get? account = right.policies.get? account

namespace Agree

variable {account : String} {left right : Inventory}

theorem symm (agree : left.Agree account right) : right.Agree account left :=
  ⟨agree.hosts.symm, agree.policy.symm⟩

theorem trans {middle : Inventory} (first : left.Agree account middle)
    (second : middle.Agree account right) : left.Agree account right :=
  ⟨first.hosts.trans second.hosts, first.policy.trans second.policy⟩

theorem after (agree : left.Agree account right) (decisions : List Decision) :
    (left.after decisions).Agree account (right.after decisions) :=
  ⟨hostsOf_after_congr agree.hosts decisions, agree.policy⟩

/-- They answer the same pages of the account. -/
theorem page (agree : left.Agree account right) (after : Option HostId) (limit : Nat) :
    left.page account after limit = right.page account after limit := by
  rw [Inventory.page, Inventory.page, agree.hosts]

end Agree

theorem mem_accounts {inventory : Inventory} {account : String} :
    account ∈ inventory.accounts ↔ ∃ host ∈ inventory.hosts, host.account = account := by
  simp [accounts]

/-- Decisions about other accounts leave an account's hosts alone. -/
theorem hostsOf_after_of_foreign {inventory : Inventory} {decisions : List Decision}
    {account : String} (foreign : ∀ decision ∈ decisions,
      decision.duplicate ∈ inventory.hosts ∧ decision.duplicate.account ≠ account) :
    (inventory.after decisions).hostsOf account = inventory.hostsOf account := by
  rw [hostsOf_after, List.filter_eq_self]
  intro host present
  obtain ⟨stored, belongs⟩ := mem_hostsOf.1 present
  refine decide_eq_true fun named => ?_
  obtain ⟨decision, among, sameId⟩ := List.mem_map.1 named
  obtain ⟨duplicateStored, elsewhere⟩ := foreign decision among
  have same : decision.duplicate = host :=
    inventory.distinctIds.eq_of_id duplicateStored stored sameId
  exact elsewhere (same ▸ belongs)

end Inventory

namespace Pruning

/-- The clock in effect for an account. -/
def Plan.clockFor (plan : Plan) (inventory : Inventory) (account : String) : Lifecycle.Clock :=
  match inventory.policies.get? account with
  | none => plan.clock
  | some policy => plan.clock.withPolicy policy

/-- The hosts of an account among which the survivor under a filter is chosen. -/
def rivals (plan : Plan) (inventory : Inventory) (account : String) (filter : FactFilter) : List Host :=
  notCulled (plan.clockFor inventory account) plan.options
    ((inventory.hostsOf account).filter fun host => filter.accepts host.facts)

/-- The decisions that scanning a host gives rise to. -/
def verdicts (plan : Plan) (inventory : Inventory) (scanned : Host) : List Decision :=
  match FactFilter.ofHostFacts scanned.facts with
  | .ok (some (_, filter)) =>
      match inSurvivorOrder (rivals plan inventory scanned.account filter) with
      | [] => []
      | survivor :: duplicates => duplicates.map fun duplicate => ⟨scanned, duplicate, survivor⟩
  | _ => []

/-- The decisions after one more host is scanned; one found to be a duplicate adds none. -/
def judge (plan : Plan) (inventory : Inventory) (decisions : List Decision) (scanned : Host) :
    List Decision :=
  if scanned.id ∈ duplicateIds decisions then decisions
  else decisions ++ verdicts plan (inventory.after decisions) scanned

/-- The decisions that an account calls for. -/
def accountDecisions (plan : Plan) (inventory : Inventory) (account : String) : List Decision :=
  (inventory.hostsOf account).foldl (judge plan inventory) []

/-- The decisions that an inventory calls for. -/
def Plan.decisions (plan : Plan) (inventory : Inventory) : List Decision :=
  inventory.accounts.flatMap (accountDecisions plan inventory)

@[simp]
theorem clockFor_after (plan : Plan) (inventory : Inventory) (decisions : List Decision)
    (account : String) :
    plan.clockFor (inventory.after decisions) account = plan.clockFor inventory account := rfl

theorem mem_notCulled {clock : Lifecycle.Clock} {options : Options} {hosts : List Host} {host : Host} :
    host ∈ notCulled clock options hosts ↔
      host ∈ hosts ∧ (options.excludeCulled = true → clock.isCulled host = false) := by
  unfold notCulled
  split <;> simp [*]

theorem notCulled_sublist (clock : Lifecycle.Clock) (options : Options) (hosts : List Host) :
    (notCulled clock options hosts).Sublist hosts := by
  unfold notCulled
  split
  · exact List.filter_sublist
  · exact List.Sublist.refl _

/-- Who competes: hosts of the account that the filter accepts and that are not left alone
as culled. -/
theorem mem_rivals {plan : Plan} {inventory : Inventory} {account : String} {filter : FactFilter}
    {host : Host} :
    host ∈ rivals plan inventory account filter ↔
      (host ∈ inventory.hosts ∧ host.account = account) ∧ filter.accepts host.facts = true ∧
        (plan.options.excludeCulled = true →
          (plan.clockFor inventory account).isCulled host = false) := by
  rw [rivals, mem_notCulled, List.mem_filter, Inventory.mem_hostsOf, and_assoc]

theorem rivals_distinct (plan : Plan) (inventory : Inventory) (account : String)
    (filter : FactFilter) : DistinctIds (rivals plan inventory account filter) :=
  inventory.distinctIds.sublist <|
    (notCulled_sublist _ _ _).trans (List.filter_sublist.trans List.filter_sublist)

/-- Scanning decides nothing, or it sorts the rivals under the host's filter. -/
theorem verdicts_cases (plan : Plan) (inventory : Inventory) (scanned : Host) :
    verdicts plan inventory scanned = [] ∨
      ∃ basis filter survivor duplicates,
        FactFilter.ofHostFacts scanned.facts = .ok (some (basis, filter)) ∧
        inSurvivorOrder (rivals plan inventory scanned.account filter) = survivor :: duplicates ∧
        verdicts plan inventory scanned =
          duplicates.map fun duplicate => ⟨scanned, duplicate, survivor⟩ := by
  unfold verdicts
  split
  next basis filter made =>
    split
    next => exact Or.inl rfl
    next survivor duplicates sorted =>
      exact Or.inr ⟨basis, filter, survivor, duplicates, made, sorted, rfl⟩
  next => exact Or.inl rfl

/-- What a scan decides names the scanned host. -/
theorem scanned_of_verdicts {plan : Plan} {inventory : Inventory} {scanned : Host}
    {decision : Decision} (among : decision ∈ verdicts plan inventory scanned) :
    decision.scanned = scanned := by
  rcases verdicts_cases plan inventory scanned with none | ⟨_, _, _, _, _, _, all⟩
  · rw [none] at among
    cases among
  · rw [all] at among
    obtain ⟨duplicate, -, rfl⟩ := List.mem_map.1 among
    rfl

theorem clockFor_congr {plan : Plan} {left right : Inventory} {account : String}
    (agree : left.Agree account right) : plan.clockFor left account = plan.clockFor right account := by
  rw [Plan.clockFor, Plan.clockFor, agree.policy]

theorem rivals_congr {plan : Plan} {left right : Inventory} {account : String}
    (agree : left.Agree account right) (filter : FactFilter) :
    rivals plan left account filter = rivals plan right account filter := by
  rw [rivals, rivals, agree.hosts, clockFor_congr agree]

/-- What scanning decides depends on the account's hosts and policy alone. -/
theorem verdicts_congr {plan : Plan} {left right : Inventory} {scanned : Host}
    (agree : left.Agree scanned.account right) :
    verdicts plan left scanned = verdicts plan right scanned := by
  simp only [verdicts, rivals_congr agree]

theorem judge_congr {plan : Plan} {left right : Inventory} {decisions : List Decision}
    {scanned : Host} (agree : left.Agree scanned.account right) :
    judge plan left decisions scanned = judge plan right decisions scanned := by
  rw [judge, judge, verdicts_congr (agree.after decisions)]

theorem foldl_judge_congr {plan : Plan} {left right : Inventory} {account : String}
    (agree : left.Agree account right) {pending : List Host}
    (belong : ∀ host ∈ pending, host.account = account) (decisions : List Decision) :
    pending.foldl (judge plan left) decisions = pending.foldl (judge plan right) decisions := by
  induction pending generalizing decisions with
  | nil => rfl
  | cons host rest inductionHypothesis =>
      have here : host.account = account := belong host List.mem_cons_self
      rw [List.foldl_cons, List.foldl_cons, judge_congr (here ▸ agree)]
      exact inductionHypothesis (fun other later => belong other (List.mem_cons_of_mem _ later)) _

/-- An account's decisions depend on its own hosts and policy alone. -/
theorem accountDecisions_congr {plan : Plan} {left right : Inventory} {account : String}
    (agree : left.Agree account right) :
    accountDecisions plan left account = accountDecisions plan right account := by
  rw [accountDecisions, accountDecisions, agree.hosts]
  exact foldl_judge_congr agree (fun _ present => (Inventory.mem_hostsOf.1 present).2) []

theorem prefix_judge (plan : Plan) (inventory : Inventory) (decisions : List Decision)
    (scanned : Host) : decisions <+: judge plan inventory decisions scanned := by
  unfold judge
  split
  · exact List.prefix_rfl
  · exact List.prefix_append _ _

/-- Decisions are never taken back. -/
theorem prefix_foldl_judge (plan : Plan) (inventory : Inventory) (decisions : List Decision)
    (pending : List Host) : decisions <+: pending.foldl (judge plan inventory) decisions := by
  induction pending generalizing decisions with
  | nil => exact List.prefix_rfl
  | cons host rest inductionHypothesis =>
      exact (prefix_judge plan inventory decisions host).trans (inductionHypothesis _)

theorem judge_of_decided {plan : Plan} {inventory : Inventory} {decisions : List Decision}
    {scanned : Host} (decided : scanned.id ∈ duplicateIds decisions) :
    judge plan inventory decisions scanned = decisions :=
  if_pos decided

/-- Duplicates already found may be left out of what is still to be scanned: this is why
pages of a shrinking inventory lead to the same decisions as one full listing. -/
theorem foldl_judge_filter {plan : Plan} {inventory : Inventory} {keep : Host → Bool}
    {pending : List Host} {decisions : List Decision}
    (dropped : ∀ host ∈ pending, keep host = false → host.id ∈ duplicateIds decisions) :
    (pending.filter keep).foldl (judge plan inventory) decisions =
      pending.foldl (judge plan inventory) decisions := by
  induction pending generalizing decisions with
  | nil => rfl
  | cons host rest inductionHypothesis =>
      cases kept : keep host with
      | true =>
          rw [List.filter_cons_of_pos kept, List.foldl_cons, List.foldl_cons]
          refine inductionHypothesis fun other later lost => ?_
          obtain ⟨added, extended⟩ := prefix_judge plan inventory decisions host
          rw [← extended, duplicateIds_append]
          exact List.mem_append_left _ (dropped other (List.mem_cons_of_mem _ later) lost)
      | false =>
          have decided := dropped host List.mem_cons_self kept
          rw [List.filter_cons_of_neg (by simp [kept]), List.foldl_cons, judge_of_decided decided]
          exact inductionHypothesis fun other later => dropped other (List.mem_cons_of_mem _ later)

/-- How a decision came about: `earlier` were made before its host was scanned, `group` for
the same host before it. -/
structure Arises (plan : Plan) (inventory : Inventory) (earlier group : List Decision)
    (decision : Decision) (filter : FactFilter) : Prop where
  /-- The scanned host had not been found to be a duplicate. -/
  present : decision.scanned ∈ (inventory.after earlier).hosts
  made : ∃ basis, FactFilter.ofHostFacts decision.scanned.facts = .ok (some (basis, filter))
  /-- The rivals at that moment: the survivor, the duplicates of the group, this one, and those
  still to come. -/
  sorted : ∃ later,
    inSurvivorOrder (rivals plan (inventory.after earlier) decision.scanned.account filter) =
      decision.survivor :: (group.map Decision.duplicate ++ decision.duplicate :: later)
  /-- The scan of a host is one run of decisions, all for one survivor. -/
  alike : ∀ other ∈ group, other.scanned = decision.scanned ∧ other.survivor = decision.survivor
  fresh : ∀ other ∈ earlier, other.scanned.id ≠ decision.scanned.id

namespace Arises

variable {plan : Plan} {inventory : Inventory} {earlier group : List Decision}
  {decision : Decision} {filter : FactFilter}

/-- Whoever is behind the survivor in the order of the scan is outranked by it. -/
theorem survivor_outranks (arises : Arises plan inventory earlier group decision filter)
    {host : Host}
    (rival : host ∈ rivals plan (inventory.after earlier) decision.scanned.account filter) :
    host = decision.survivor ∨ decision.survivor.Outranks host := by
  obtain ⟨later, sorted⟩ := arises.sorted
  have ranked := inSurvivorOrder_outranks
    (rivals_distinct plan (inventory.after earlier) decision.scanned.account filter)
  rw [sorted] at ranked
  rw [← mem_inSurvivorOrder, sorted] at rival
  rcases List.mem_cons.1 rival with same | behind
  · exact Or.inl same
  · exact Or.inr ((List.pairwise_cons.1 ranked).1 host behind)

theorem survivor_rival (arises : Arises plan inventory earlier group decision filter) :
    decision.survivor ∈ rivals plan (inventory.after earlier) decision.scanned.account filter := by
  obtain ⟨later, sorted⟩ := arises.sorted
  rw [← mem_inSurvivorOrder, sorted]
  exact List.mem_cons_self

theorem duplicate_rival (arises : Arises plan inventory earlier group decision filter) :
    decision.duplicate ∈ rivals plan (inventory.after earlier) decision.scanned.account filter := by
  obtain ⟨later, sorted⟩ := arises.sorted
  rw [← mem_inSurvivorOrder, sorted]
  exact List.mem_cons_of_mem _ (List.mem_append_right _ List.mem_cons_self)

/-- The survivor and the duplicate, and what the scan decided before, are different hosts. -/
theorem apart (arises : Arises plan inventory earlier group decision filter) :
    decision.survivor.id ≠ decision.duplicate.id ∧
      decision.survivor.id ∉ duplicateIds group ∧ decision.duplicate.id ∉ duplicateIds group := by
  obtain ⟨later, sorted⟩ := arises.sorted
  have distinct : DistinctIds (inSurvivorOrder
      (rivals plan (inventory.after earlier) decision.scanned.account filter)) :=
    (rivals_distinct plan _ _ _).perm (inSurvivorOrder_perm _).symm
  rw [sorted] at distinct
  obtain ⟨survivorApart, rest⟩ := List.pairwise_cons.1 distinct
  obtain ⟨-, -, groupApart⟩ := List.pairwise_append.1 rest
  refine ⟨survivorApart _ (List.mem_append_right _ List.mem_cons_self), ?_, ?_⟩
  · intro named
    obtain ⟨other, among, same⟩ := List.mem_map.1 named
    exact survivorApart other.duplicate
      (List.mem_append_left _ (List.mem_map_of_mem among)) same.symm
  · intro named
    obtain ⟨other, among, same⟩ := List.mem_map.1 named
    exact groupApart other.duplicate (List.mem_map_of_mem among) decision.duplicate
      List.mem_cons_self same

theorem outranks (arises : Arises plan inventory earlier group decision filter) :
    decision.survivor.Outranks decision.duplicate := by
  rcases arises.survivor_outranks arises.duplicate_rival with same | above
  · exact absurd (congrArg Host.id same).symm arises.apart.1
  · exact above

theorem duplicate_account (arises : Arises plan inventory earlier group decision filter) :
    decision.duplicate.account = decision.scanned.account :=
  (mem_rivals.1 arises.duplicate_rival).1.2

theorem survivor_account (arises : Arises plan inventory earlier group decision filter) :
    decision.survivor.account = decision.scanned.account :=
  (mem_rivals.1 arises.survivor_rival).1.2

/-- The survivor is still there when its duplicate is removed. -/
theorem survivor_present (arises : Arises plan inventory earlier group decision filter) :
    decision.survivor ∈ (inventory.after (earlier ++ group)).hosts := by
  rw [Inventory.after_append, Inventory.mem_after]
  exact ⟨(mem_rivals.1 arises.survivor_rival).1.1, arises.apart.2.1⟩

/-- A duplicate is there until it is removed, so no host is removed twice. -/
theorem duplicate_present (arises : Arises plan inventory earlier group decision filter) :
    decision.duplicate ∈ (inventory.after (earlier ++ group)).hosts := by
  rw [Inventory.after_append, Inventory.mem_after]
  exact ⟨(mem_rivals.1 arises.duplicate_rival).1.1, arises.apart.2.2⟩

end Arises

/-- Every decision that scanning one host adds arises from that scan. -/
theorem arises_of_verdicts {plan : Plan} {inventory : Inventory} {earlier : List Decision}
    {scanned : Host} (present : scanned ∈ (inventory.after earlier).hosts)
    (fresh : ∀ other ∈ earlier, other.scanned.id ≠ scanned.id)
    {group rest : List Decision} {decision : Decision}
    (split : verdicts plan (inventory.after earlier) scanned = group ++ decision :: rest) :
    ∃ filter, Arises plan inventory earlier group decision filter := by
  rcases verdicts_cases plan (inventory.after earlier) scanned with
    none | ⟨basis, filter, survivor, duplicates, made, sorted, all⟩
  · rw [none] at split
    cases group <;> cases split
  · rw [all] at split
    obtain ⟨before, following, rfl, groupEq, followingEq⟩ := List.map_eq_append_iff.1 split
    obtain ⟨duplicate, later, rfl, decisionEq, -⟩ := List.map_eq_cons_iff.1 followingEq
    subst groupEq
    subst decisionEq
    refine ⟨filter, present, ⟨basis, made⟩, ⟨later, ?_⟩, ?_, fresh⟩
    · simpa [Function.comp_def] using sorted
    · intro other among
      obtain ⟨duplicate', -, rfl⟩ := List.mem_map.1 among
      exact ⟨rfl, rfl⟩

/-- Every decision that scanning some hosts adds arises from the scan of one of them. -/
theorem arises_of_foldl {plan : Plan} {inventory : Inventory} {pending : List Host}
    {decisions found : List Decision}
    (stored : ∀ host ∈ pending, host ∈ inventory.hosts) (distinct : DistinctIds pending)
    (fresh : ∀ other ∈ decisions, ∀ host ∈ pending, other.scanned.id ≠ host.id)
    (all : pending.foldl (judge plan inventory) decisions = decisions ++ found)
    {before after : List Decision} {decision : Decision}
    (split : found = before ++ decision :: after) :
    ∃ earlier group filter, before = earlier ++ group ∧ decision.scanned ∈ pending ∧
      Arises plan inventory (decisions ++ earlier) group decision filter := by
  induction pending generalizing decisions found before with
  | nil =>
      have nothing : found = [] := by simpa using all
      rw [nothing] at split
      cases before <;> cases split
  | cons host rest inductionHypothesis =>
      obtain ⟨hostApart, restDistinct⟩ := List.pairwise_cons.1 distinct
      have restStored : ∀ other ∈ rest, other ∈ inventory.hosts :=
        fun other later => stored other (List.mem_cons_of_mem _ later)
      rw [List.foldl_cons, judge] at all
      split at all
      · -- The host was found to be a duplicate, so the rest decides everything.
        have restFresh : ∀ other ∈ decisions, ∀ later ∈ rest, other.scanned.id ≠ later.id :=
          fun other among later inRest => fresh other among later (List.mem_cons_of_mem _ inRest)
        obtain ⟨earlier, group, filter, parts, inRest, arises⟩ :=
          inductionHypothesis restStored restDistinct restFresh all split
        exact ⟨earlier, group, filter, parts, List.mem_cons_of_mem _ inRest, arises⟩
      · next undecided =>
        -- What the host decides comes first; a decision is among that or among the rest's.
        obtain ⟨others, othersEq⟩ := prefix_foldl_judge plan inventory
          (decisions ++ verdicts plan (inventory.after decisions) host) rest
        have foundEq : found = verdicts plan (inventory.after decisions) host ++ others := by
          rw [← othersEq, List.append_assoc] at all
          exact (List.append_cancel_left all).symm
        have restFresh : ∀ other ∈ decisions ++ verdicts plan (inventory.after decisions) host,
            ∀ later ∈ rest, other.scanned.id ≠ later.id := by
          intro other among later inRest
          rcases List.mem_append.1 among with old | new
          · exact fresh other old later (List.mem_cons_of_mem _ inRest)
          · rw [scanned_of_verdicts new]
            exact hostApart later inRest
        rw [foundEq] at split
        rcases split_append split with ⟨between, verdictsEq⟩ | ⟨between, beforeEq, othersSplit⟩
        · have present : host ∈ (inventory.after decisions).hosts :=
            Inventory.mem_after.2 ⟨stored host List.mem_cons_self, undecided⟩
          obtain ⟨filter, arises⟩ := arises_of_verdicts present
            (fun other among => fresh other among host List.mem_cons_self) verdictsEq
          have scannedEq : decision.scanned = host :=
            scanned_of_verdicts (verdictsEq ▸ List.mem_append_right _ List.mem_cons_self)
          exact ⟨[], before, filter, rfl, scannedEq ▸ List.mem_cons_self, by simpa using arises⟩
        · obtain ⟨earlier, group, filter, parts, inRest, arises⟩ :=
            inductionHypothesis restStored restDistinct restFresh othersEq.symm othersSplit
          refine ⟨verdicts plan (inventory.after decisions) host ++ earlier, group, filter, ?_,
            List.mem_cons_of_mem _ inRest, ?_⟩
          · rw [beforeEq, parts, List.append_assoc]
          · rwa [← List.append_assoc]

/-- Every decision of an account arises from the scan of one of its hosts. -/
theorem arises_of_account {plan : Plan} {inventory : Inventory} {account : String}
    {before after : List Decision} {decision : Decision}
    (split : accountDecisions plan inventory account = before ++ decision :: after) :
    ∃ earlier group filter, before = earlier ++ group ∧ decision.scanned.account = account ∧
      Arises plan inventory earlier group decision filter := by
  have all : (inventory.hostsOf account).foldl (judge plan inventory) [] =
      [] ++ accountDecisions plan inventory account := by
    rw [List.nil_append, accountDecisions]
  obtain ⟨earlier, group, filter, parts, scanned, arises⟩ :=
    arises_of_foldl (fun host present => (Inventory.mem_hostsOf.1 present).1)
      (inventory.distinctIds.sublist List.filter_sublist)
      (fun other among => absurd among List.not_mem_nil) all split
  exact ⟨earlier, group, filter, parts, (Inventory.mem_hostsOf.1 scanned).2,
    by rwa [List.nil_append] at arises⟩

/-- An account's decisions are about hosts of the account. -/
theorem accountDecisions_within {plan : Plan} {inventory : Inventory} {account : String}
    {decision : Decision} (among : decision ∈ accountDecisions plan inventory account) :
    decision.duplicate ∈ inventory.hostsOf account ∧ decision.scanned ∈ inventory.hostsOf account := by
  obtain ⟨before, after, split⟩ := List.append_of_mem among
  obtain ⟨earlier, group, filter, -, here, arises⟩ := arises_of_account split
  have duplicate := (mem_rivals.1 arises.duplicate_rival).1
  rw [Inventory.mem_hostsOf, Inventory.mem_hostsOf, ← here]
  exact ⟨⟨(Inventory.mem_after.1 duplicate.1).1, duplicate.2⟩,
    ⟨(Inventory.mem_after.1 arises.present).1, rfl⟩⟩

/-- Decisions about stored hosts of other accounts than some. -/
def Foreign (inventory : Inventory) (accounts : List String) (decisions : List Decision) : Prop :=
  ∀ decision ∈ decisions, decision.duplicate ∈ inventory.hosts ∧ decision.duplicate.account ∉ accounts

namespace Foreign

variable {inventory : Inventory} {account : String} {accounts : List String}
  {decisions removals : List Decision}

theorem nil : Foreign inventory accounts [] := fun _ among => absurd among List.not_mem_nil

/-- Their removals leave the accounts as they are. -/
theorem agree (foreign : Foreign inventory accounts decisions) (within : removals ⊆ decisions)
    (here : account ∈ accounts) : (inventory.after removals).Agree account inventory := by
  refine ⟨Inventory.hostsOf_after_of_foreign fun decision among => ?_, rfl⟩
  obtain ⟨stored, elsewhere⟩ := foreign decision (within among)
  exact ⟨stored, fun same => elsewhere (same ▸ here)⟩

/-- The decisions of an account are about none of the others. -/
theorem next (foreign : Foreign inventory (account :: accounts) decisions)
    (apart : account ∉ accounts) (plan : Plan) :
    Foreign inventory accounts (decisions ++ accountDecisions plan inventory account) := by
  intro decision among
  rcases List.mem_append.1 among with old | new
  · obtain ⟨stored, elsewhere⟩ := foreign decision old
    exact ⟨stored, fun later => elsewhere (List.mem_cons_of_mem _ later)⟩
  · obtain ⟨stored, belongs⟩ := Inventory.mem_hostsOf.1 (accountDecisions_within new).1
    exact ⟨stored, belongs ▸ apart⟩

end Foreign

/-- What was decided for other accounts makes no difference to where a decision comes from. -/
theorem Arises.widen {plan : Plan} {inventory : Inventory} {earlier group prior : List Decision}
    {decision : Decision} {filter : FactFilter}
    (arises : Arises plan inventory earlier group decision filter)
    (stored : ∀ other ∈ prior, other.duplicate ∈ inventory.hosts ∧ other.scanned ∈ inventory.hosts)
    (foreign : ∀ other ∈ prior, other.duplicate.account ≠ decision.scanned.account ∧
      other.scanned.account ≠ decision.scanned.account) :
    Arises plan inventory (prior ++ earlier) group decision filter := by
  have scannedStored := (Inventory.mem_after.1 arises.present).1
  have hosts : (inventory.after (prior ++ earlier)).hostsOf decision.scanned.account =
      (inventory.after earlier).hostsOf decision.scanned.account := by
    rw [Inventory.after_append]
    exact Inventory.hostsOf_after_congr (Inventory.hostsOf_after_of_foreign
      fun other among => ⟨(stored other among).1, (foreign other among).1⟩) earlier
  refine ⟨?_, arises.made, ?_, arises.alike, ?_⟩
  · have present : decision.scanned ∈ (inventory.after (prior ++ earlier)).hostsOf
        decision.scanned.account := by
      rw [hosts]
      exact Inventory.mem_hostsOf.2 ⟨arises.present, rfl⟩
    exact (Inventory.mem_hostsOf.1 present).1
  · obtain ⟨later, sorted⟩ := arises.sorted
    refine ⟨later, ?_⟩
    rw [← sorted, rivals, rivals, hosts]
    rfl
  · intro other among
    rcases List.mem_append.1 among with old | new
    · intro sameId
      have same := inventory.distinctIds.eq_of_id (stored other old).2 scannedStored sameId
      exact (foreign other old).2 (congrArg Host.account same)
    · exact arises.fresh other new

/-- Every decision an inventory calls for arises from one scan. -/
theorem exists_arises {plan : Plan} {inventory : Inventory} {before after : List Decision}
    {decision : Decision} (split : plan.decisions inventory = before ++ decision :: after) :
    ∃ earlier group filter, before = earlier ++ group ∧
      Arises plan inventory earlier group decision filter := by
  obtain ⟨accounts, account, later, inFront, behind, listed, here, beforeEq⟩ := split_flatMap split
  obtain ⟨earlier, group, filter, parts, scannedHere, arises⟩ := arises_of_account here
  have apart : ∀ other ∈ accounts, other ≠ account := by
    have distinct : inventory.accounts.Nodup := ascendingDistinct_nodup _
    rw [listed] at distinct
    obtain ⟨-, -, apart⟩ := List.pairwise_append.1 distinct
    exact fun other among => apart other among account List.mem_cons_self
  have within : ∀ other ∈ accounts.flatMap (accountDecisions plan inventory), ∃ name ∈ accounts,
      other.duplicate ∈ inventory.hostsOf name ∧ other.scanned ∈ inventory.hostsOf name := by
    intro other among
    obtain ⟨name, nameIn, decided⟩ := List.mem_flatMap.1 among
    exact ⟨name, nameIn, accountDecisions_within decided⟩
  refine ⟨accounts.flatMap (accountDecisions plan inventory) ++ earlier, group, filter, ?_,
    arises.widen ?_ ?_⟩
  · rw [beforeEq, parts, List.append_assoc]
  · intro other among
    obtain ⟨name, -, duplicate, scanned⟩ := within other among
    exact ⟨(Inventory.mem_hostsOf.1 duplicate).1, (Inventory.mem_hostsOf.1 scanned).1⟩
  · intro other among
    obtain ⟨name, nameIn, duplicate, scanned⟩ := within other among
    rw [(Inventory.mem_hostsOf.1 duplicate).2, (Inventory.mem_hostsOf.1 scanned).2, scannedHere]
    exact ⟨apart name nameIn, apart name nameIn⟩

/-- The first decisions that an inventory calls for arise from scans as all of them do. -/
theorem exists_arises_of_ahead {plan : Plan} {inventory : Inventory}
    {decisions before after : List Decision} {decision : Decision}
    (ahead : decisions <+: plan.decisions inventory) (split : decisions = before ++ decision :: after) :
    ∃ earlier group filter, before = earlier ++ group ∧
      Arises plan inventory earlier group decision filter := by
  obtain ⟨rest, whole⟩ := ahead
  rw [split, List.append_assoc, List.cons_append] at whole
  exact exists_arises whole.symm

end Pruning

end HostPruning
