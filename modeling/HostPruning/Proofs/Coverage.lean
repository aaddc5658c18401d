import Mathlib.Algebra.Order.BigOperators.Group.List
import Mathlib.Algebra.Order.Ring.Nat
import HostPruning.Proofs.Accounts
import HostPruning.Proofs.Attendance

/-!
# What the steps of a run count

Every step adds its share to the counts of a run, so the counts of a run that comes to its end are
those of its steps. Here the steps of an inventory are counted. Each account is entered once. The hosts
taken up in it depend on the pages, but there are never more than the account has at the start and never
fewer than are left at its end (`hostsScanned_scanSteps`). A malformed host is skipped when it is taken
up and was not found to be a duplicate before (`malformedSkipped_stepsFor`).

Sums over accounts are sums over hosts, since every host belongs to one account
(`sum_length_hostsOf`).
-/

namespace HostPruning.Pruning

open Inventory Scan

/-! ### Shares -/

/-- What a step adds to the counts of a run, leaving aside those of removals. -/
def Step.share : Step → Summary
  | .enter => { accountsProcessed := 1 }
  | .scan => { hostsScanned := 1 }
  | .malformed => { malformedSkipped := 1 }
  | .culled count => { culledSkipped := count }
  | .remove _ => {}
  | .fail _ => {}

/-- What steps add to one of the counts. -/
def shareOf (field : Summary → Nat) (steps : List Step) : Nat :=
  ((steps.map Step.share).map field).sum

section Shares

variable {field : Summary → Nat}

@[simp]
theorem shareOf_nil : shareOf field [] = 0 := rfl

@[simp]
theorem shareOf_cons (step : Step) (rest : List Step) :
    shareOf field (step :: rest) = field step.share + shareOf field rest := by
  simp [shareOf]

@[simp]
theorem shareOf_append (first second : List Step) :
    shareOf field (first ++ second) = shareOf field first + shareOf field second := by
  simp [shareOf]

theorem shareOf_flatMap {Index : Type} (steps : Index → List Step) (indices : List Index) :
    shareOf field (indices.flatMap steps) = (indices.map fun index => shareOf field (steps index)).sum := by
  induction indices with
  | nil => rfl
  | cons index rest inductionHypothesis =>
      rw [List.flatMap_cons, shareOf_append, inductionHypothesis, List.map_cons, List.sum_cons]

/-- Steps that have no share add nothing. -/
theorem shareOf_eq_zero {steps : List Step} (nothing : ∀ step ∈ steps, field step.share = 0) :
    shareOf field steps = 0 :=
  List.sum_eq_zero (by simpa using nothing)

/-- Taking up hosts adds to no other count. -/
theorem shareOf_filter_bare (unscanned : field Step.scan.share = 0) (steps : List Step) :
    shareOf field (steps.filter Step.bare) = shareOf field steps := by
  induction steps with
  | nil => rfl
  | cons step rest inductionHypothesis =>
      by_cases bare : step.bare = true
      · rw [List.filter_cons_of_pos bare, shareOf_cons, shareOf_cons, inductionHypothesis]
      · obtain rfl : step = .scan := by
          cases step <;> first | rfl | exact absurd rfl bare
        rw [List.filter_cons_of_neg bare, shareOf_cons, inductionHypothesis, unscanned, Nat.zero_add]

end Shares

/-! ### The steps of an account -/

section Account

variable {plan : Plan} {inventory : Inventory} {account : String} {decided : List Decision}

/-- Where a step of an account comes from: a host is taken up, something is done for it, or the page
budget is spent. -/
theorem mem_scanSteps {budget : Nat} {cursor : Option HostId} {step : Step}
    (among : step ∈ scanSteps plan inventory account budget cursor decided) :
    step = .scan ∨ step = .fail .pagesExhausted ∨
      ∃ earlier host, step ∈ judgedSteps plan inventory earlier host := by
  have onPage : ∀ {pending earlier}, step ∈ pageSteps plan inventory earlier pending →
      step = .scan ∨ ∃ earlier host, step ∈ judgedSteps plan inventory earlier host := by
    intro pending
    induction pending with
    | nil => exact fun among => absurd among List.not_mem_nil
    | cons host rest inductionHypothesis =>
        intro earlier among
        rw [pageSteps, List.cons_append, List.mem_cons, List.mem_append] at among
        rcases among with scanned | judged | later
        · exact Or.inl scanned
        · exact Or.inr ⟨earlier, host, judged⟩
        · exact inductionHypothesis later
  induction budget generalizing cursor decided with
  | zero => exact Or.inr (Or.inl (List.mem_singleton.1 among))
  | succ budget inductionHypothesis =>
      rw [scanSteps, List.mem_append] at among
      rcases among with here | further
      · exact (onPage here).imp_right Or.inr
      · split at further
        · cases further
        · exact inductionHypothesis further

/-- A step of an account takes up a host, fails, or is done for one of its hosts. -/
theorem mem_accountSteps {step : Step} (among : step ∈ accountSteps plan inventory account) :
    step = .scan ∨ (∃ failure, step = .fail failure) ∨
      ∃ earlier host, step ∈ judgedSteps plan inventory earlier host := by
  have scanned : step ∈ scanSteps plan inventory account plan.pageBudget none [] →
      step = .scan ∨ (∃ failure, step = .fail failure) ∨
        ∃ earlier host, step ∈ judgedSteps plan inventory earlier host :=
    fun among => (mem_scanSteps among).imp_right (Or.imp_left fun fails => ⟨_, fails⟩)
  unfold accountSteps underPolicy at among
  split at among
  next => exact scanned among
  next policy stored =>
    split at among
    · exact Or.inr (Or.inl ⟨_, List.mem_singleton.1 among⟩)
    · exact scanned among

/-- What is done for a host enters no account, and leaves culled candidates alone only when it is
to. -/
theorem share_of_judgedSteps {host : Host} {step : Step}
    (among : step ∈ judgedSteps plan inventory decided host) :
    step.share.accountsProcessed = 0 ∧ step.share.hostsScanned = 0 ∧
      (plan.options.excludeCulled = false → step.share.culledSkipped = 0) := by
  unfold judgedSteps hostSteps at among
  split at among
  · cases among
  · split at among
    · obtain rfl := List.mem_singleton.1 among
      exact ⟨rfl, rfl, fun _ => rfl⟩
    · cases among
    · rcases List.mem_cons.1 among with rfl | removal
      · refine ⟨rfl, rfl, fun included => ?_⟩
        simp [Step.share, rivals, notCulled, included]
      · obtain ⟨decision, -, rfl⟩ := List.mem_map.1 removal
        exact ⟨rfl, rfl, fun _ => rfl⟩

/-- An account's own steps enter no account. -/
theorem accountsProcessed_accountSteps :
    shareOf Summary.accountsProcessed (accountSteps plan inventory account) = 0 := by
  refine shareOf_eq_zero fun step among => ?_
  rcases mem_accountSteps among with rfl | ⟨failure, rfl⟩ | ⟨earlier, host, judged⟩
  · rfl
  · rfl
  · exact (share_of_judgedSteps judged).1

/-- Culled candidates are left alone only when they are to be. -/
theorem culledSkipped_accountSteps (included : plan.options.excludeCulled = false) {step : Step}
    (among : step ∈ accountSteps plan inventory account) : step.share.culledSkipped = 0 := by
  rcases mem_accountSteps among with rfl | ⟨failure, rfl⟩ | ⟨earlier, host, judged⟩
  · rfl
  · rfl
  · exact (share_of_judgedSteps judged).2.2 included

/-- As many hosts are taken up as are on a page. -/
theorem hostsScanned_pageSteps (pending : List Host) (decided : List Decision) :
    shareOf Summary.hostsScanned (pageSteps plan inventory decided pending) = pending.length := by
  induction pending generalizing decided with
  | nil => rfl
  | cons host rest inductionHypothesis =>
      have own : shareOf Summary.hostsScanned (judgedSteps plan inventory decided host) = 0 :=
        shareOf_eq_zero fun _ among => (share_of_judgedSteps among).2.1
      rw [pageSteps, List.cons_append, shareOf_cons, shareOf_append, own, inductionHypothesis,
        List.length_cons]
      simp [Step.share, Nat.add_comm]

/-- All hosts of an account lie above the start. -/
theorem filter_above_none (inventory : Inventory) (account : String) :
    (inventory.hostsOf account).filter (above none) = inventory.hostsOf account :=
  List.filter_eq_self.2 fun _ _ => rfl

/-- More removals leave fewer hosts above a cursor. -/
theorem length_above_after_le {fewer more : List Decision} (within : fewer ⊆ more)
    (cursor : Option HostId) :
    (((inventory.after more).hostsOf account).filter (above cursor)).length ≤
      (((inventory.after fewer).hostsOf account).filter (above cursor)).length := by
  rw [filter_above_after, filter_above_after]
  refine (List.monotone_filter_right _ fun host left => ?_).length_le
  have named : ∀ id ∈ duplicateIds fewer, id ∈ duplicateIds more := List.map_subset _ within
  exact decide_eq_true (mt (named host.id) (of_decide_eq_true left))

/-- More removals leave an account fewer hosts. -/
theorem length_hostsOf_after_le {fewer more : List Decision} (within : fewer ⊆ more) :
    ((inventory.after more).hostsOf account).length ≤ ((inventory.after fewer).hostsOf account).length := by
  rw [← filter_above_none (inventory.after more), ← filter_above_none (inventory.after fewer)]
  exact length_above_after_le within none

theorem due_subset {fewer more : List Decision} (within : fewer ⊆ more) :
    plan.due fewer ⊆ plan.due more := by
  unfold Plan.due
  split
  · exact List.Subset.refl _
  · exact within

/-- What is carried out of some decisions is carried out of them and more. -/
theorem prefix_due_mono {earlier later : List Decision} (ahead : earlier <+: later) :
    plan.due earlier <+: plan.due later := by
  obtain ⟨rest, rfl⟩ := ahead
  rw [due_append]
  exact List.prefix_append _ _

/-- Of the hosts above a cursor all that are left at the end are taken up, and none that was not there
when the cursor was reached. -/
theorem hostsScanned_scanSteps {budget : Nat} {cursor : Option HostId}
    (smooth : Smooth (scanSteps plan inventory account budget cursor decided)) :
    let final := ((inventory.hostsOf account).filter (above cursor)).foldl (judge plan inventory) decided
    let scanned := shareOf Summary.hostsScanned (scanSteps plan inventory account budget cursor decided)
    (((inventory.after (plan.due final)).hostsOf account).filter (above cursor)).length ≤ scanned ∧
      scanned ≤ (((inventory.after (plan.due decided)).hostsOf account).filter (above cursor)).length := by
  induction budget generalizing cursor decided with
  | zero => exact absurd List.mem_cons_self (smooth .pagesExhausted)
  | succ budget inductionHypothesis =>
      intro final scanned
      obtain ⟨page, taken⟩ : ∃ page, page =
        (inventory.after (plan.due decided)).page account cursor plan.options.chunkSize := ⟨_, rfl⟩
      have removed : plan.due decided <+: decided := prefix_due plan decided
      have whole := page_append account cursor (inventory.after (plan.due decided)) taken
      have judged : final = ((inventory.hostsOf account).filter (above (cursorAfter cursor page))).foldl
          (judge plan inventory) (page.foldl (judge plan inventory) decided) :=
        (foldl_judge_page plan inventory account cursor removed taken).symm
      have onward : plan.due decided <+: plan.due final :=
        prefix_due_mono (prefix_foldl_judge plan inventory decided _)
      simp only [scanSteps, ← taken] at smooth
      dsimp only [scanned]
      simp only [scanSteps, ← taken]
      rw [shareOf_append, hostsScanned_pageSteps]
      split
      next short =>
        have all : page =
            ((inventory.after (plan.due decided)).hostsOf account).filter (above cursor) := by
          rw [filter_above_after]
          exact page_of_short inventory account cursor taken short
        rw [shareOf_nil, Nat.add_zero, all]
        exact ⟨length_above_after_le onward.subset cursor, Nat.le_refl _⟩
      next full =>
        rw [if_neg full] at smooth
        obtain ⟨atLeast, atMost⟩ := inductionHypothesis fun failure among =>
          smooth failure (List.mem_append_right _ among)
        rw [← judged] at atLeast
        constructor
        · -- Hosts left above the old cursor were on the page or are left above the new one.
          obtain ⟨extra, extraEq⟩ := onward
          rw [← extraEq, after_append] at atLeast ⊢
          rw [filter_above_after] at atLeast ⊢
          rw [← whole, List.filter_append, List.length_append]
          exact Nat.add_le_add (List.length_filter_le _ _) atLeast
        · rw [← whole, List.length_append]
          refine Nat.add_le_add_left (Nat.le_trans atMost (length_above_after_le ?_ _)) _
          exact (prefix_due_mono (prefix_foldl_judge plan inventory decided page)).subset

end Account

/-! ### Malformed hosts -/

/-- Whether the facts of a host are malformed. -/
def malformed (host : Host) : Bool :=
  match Facts.parse host.facts with
  | .error _ => true
  | .ok _ => false

/-- Whether a host was found to be a duplicate before its turn. The hosts of an account take turns in
ascending order, so a host that comes before it was then scanned. -/
def foundBefore (found : List Decision) (host : Host) : Bool :=
  found.any fun decision => decision.duplicate.id = host.id && decision.scanned.id < host.id

section Malformed

variable {plan : Plan} {inventory : Inventory} {account : String} {decided : List Decision}
  {pending : List Host}

theorem foundBefore_iff {found : List Decision} {host : Host} :
    foundBefore found host = true ↔
      ∃ decision ∈ found, decision.duplicate.id = host.id ∧ decision.scanned.id < host.id := by
  simp [foundBefore]

/-- Judging hosts adds only decisions that scanning them gives rise to. -/
theorem mem_foldl_judge {decision : Decision}
    (among : decision ∈ pending.foldl (judge plan inventory) decided) :
    decision ∈ decided ∨ decision.scanned ∈ pending := by
  induction pending generalizing decided with
  | nil => exact Or.inl among
  | cons host rest inductionHypothesis =>
      rcases inductionHypothesis among with judged | later
      · unfold judge at judged
        split at judged
        · exact Or.inl judged
        · rcases List.mem_append.1 judged with old | new
          · exact Or.inl old
          · exact Or.inr (scanned_of_verdicts new ▸ List.mem_cons_self)
      · exact Or.inr (List.mem_cons_of_mem _ later)

/-- A host taken up after some decisions is skipped as malformed unless it was found to be a
duplicate. -/
theorem malformedSkipped_judgedSteps (host : Host) :
    shareOf Summary.malformedSkipped (judgedSteps plan inventory decided host) =
      if malformed host && decide (host.id ∉ duplicateIds decided) then 1 else 0 := by
  unfold judgedSteps hostSteps FactFilter.ofHostFacts malformed
  by_cases named : host.id ∈ duplicateIds decided
  · simp [named]
  · cases Facts.parse host.facts with
    | error defect => simp [named, Except.map, Step.share]
    | ok facts =>
        have removals : ∀ verdicts : List Decision,
            shareOf Summary.malformedSkipped (verdicts.map .remove) = 0 := fun verdicts =>
          shareOf_eq_zero (by simp [Step.share])
        simp only [named, Except.map, if_false]
        split
        next impossible => cases impossible
        next => simp
        next => simp [removals, Step.share]

/-- Of hosts in ascending order, those found before their turn are those found before any of them is
judged or by the scan of an earlier one. -/
theorem foundBefore_foldl_judge {host : Host} {rest : List Host} (ascending : Ascending (host :: rest))
    (ahead : ∀ decision ∈ decided, decision.scanned.id < host.id) :
    foundBefore ((host :: rest).foldl (judge plan inventory) decided) host = true ↔
      host.id ∈ duplicateIds decided := by
  rw [foundBefore_iff]
  constructor
  · rintro ⟨decision, among, named, before⟩
    rcases mem_foldl_judge among with old | pending
    · exact List.mem_map.2 ⟨decision, old, named⟩
    · rcases List.mem_cons.1 pending with same | later
      · exact absurd (same ▸ before) (AscendingKey.irrefl host.id)
      · have behind := (List.pairwise_cons.1 ascending).1 _ later
        exact absurd (AscendingKey.trans before behind) (AscendingKey.irrefl _)
  · intro named
    obtain ⟨decision, among, same⟩ := List.mem_map.1 named
    exact ⟨decision, (prefix_foldl_judge plan inventory decided (host :: rest)).subset among, same,
      ahead decision among⟩

/-- The malformed hosts skipped are those that were not found to be duplicates before their turn. -/
theorem malformedSkipped_stepsFor (ascending : Ascending pending)
    (ahead : ∀ decision ∈ decided, ∀ host ∈ pending, decision.scanned.id < host.id) :
    shareOf Summary.malformedSkipped (stepsFor plan inventory decided pending) =
      (pending.filter fun host => malformed host &&
        ! foundBefore (pending.foldl (judge plan inventory) decided) host).length := by
  induction pending generalizing decided with
  | nil => rfl
  | cons host rest inductionHypothesis =>
      obtain ⟨hostFirst, restAscending⟩ := List.pairwise_cons.1 ascending
      have restAhead : ∀ decision ∈ judge plan inventory decided host, ∀ other ∈ rest,
          decision.scanned.id < other.id := by
        intro decision among other later
        have judged : decision ∈ [host].foldl (judge plan inventory) decided := among
        rcases mem_foldl_judge judged with old | new
        · exact ahead decision old other (List.mem_cons_of_mem _ later)
        · exact List.mem_singleton.1 new ▸ hostFirst other later
      have here : foundBefore ((host :: rest).foldl (judge plan inventory) decided) host = true ↔
          host.id ∈ duplicateIds decided :=
        foundBefore_foldl_judge ascending fun decision among =>
          ahead decision among host List.mem_cons_self
      have same : (! foundBefore ((host :: rest).foldl (judge plan inventory) decided) host) =
          decide (host.id ∉ duplicateIds decided) := by
        rw [Bool.eq_iff_iff, Bool.not_eq_true', decide_eq_true_iff, ← here, Bool.not_eq_true]
      rw [stepsFor, shareOf_append, malformedSkipped_judgedSteps,
        inductionHypothesis restAscending restAhead, List.filter_cons, same, List.foldl_cons]
      split
      · rw [List.length_cons, Nat.add_comm]
      · rw [Nat.zero_add]

end Malformed

/-! ### Runs -/

section Runs

variable {plan : Plan} {inventory : Inventory} {account : String}

/-- Where no step fails, the policy of an account is valid, and its steps are those of its scan. -/
theorem accountSteps_of_smooth (smooth : Smooth (accountSteps plan inventory account)) :
    accountSteps plan inventory account =
      scanSteps plan inventory account plan.pageBudget none [] := by
  unfold accountSteps underPolicy at smooth ⊢
  split
  next => rfl
  next policy stored =>
    rw [stored] at smooth
    split
    next defect invalid =>
      dsimp only at smooth
      rw [invalid] at smooth
      exact absurd List.mem_cons_self (smooth _)
    next => rfl

/-- Of an account no more hosts are taken up than it has, and no fewer than it is left with. -/
theorem hostsScanned_accountSteps (smooth : Smooth (accountSteps plan inventory account)) :
    let scanned := shareOf Summary.hostsScanned (accountSteps plan inventory account)
    ((inventory.after (plan.due (accountDecisions plan inventory account))).hostsOf account).length ≤
        scanned ∧
      scanned ≤ (inventory.hostsOf account).length := by
  have scan := accountSteps_of_smooth smooth
  rw [scan] at smooth ⊢
  have bounds := hostsScanned_scanSteps smooth
  simp only [filter_above_none, due_nil, after_nil] at bounds
  exact bounds

/-- The malformed hosts of an account are skipped unless they were found to be duplicates before. -/
theorem malformedSkipped_accountSteps (smooth : Smooth (accountSteps plan inventory account)) :
    shareOf Summary.malformedSkipped (accountSteps plan inventory account) =
      ((inventory.hostsOf account).filter fun host => malformed host &&
        ! foundBefore (accountDecisions plan inventory account) host).length := by
  have scan := accountSteps_of_smooth smooth
  rw [scan] at smooth ⊢
  rw [← shareOf_filter_bare rfl, filter_bare_of_unexhausted (smooth _), filter_above_none]
  exact malformedSkipped_stepsFor (inventory.hostsOf_ascending account)
    fun _ among => absurd among List.not_mem_nil

/-- Every host is counted in the one account it belongs to. -/
theorem sum_length_hostsOf {accounts : List String} (distinct : accounts.Nodup) (hosts : List Host)
    (owned : ∀ host ∈ hosts, host.account ∈ accounts) :
    (accounts.map fun account => (hosts.filter fun host => host.account = account).length).sum =
      hosts.length := by
  induction accounts generalizing hosts with
  | nil =>
      have none : hosts = [] :=
        List.eq_nil_iff_forall_not_mem.2 fun host among => absurd (owned host among) List.not_mem_nil
      rw [none]
      rfl
  | cons account rest inductionHypothesis =>
      obtain ⟨apart, restDistinct⟩ := List.nodup_cons.1 distinct
      have others := inductionHypothesis restDistinct
        (hosts.filter fun host => ! host.account = account) fun host among => by
          obtain ⟨present, elsewhere⟩ := List.mem_filter.1 among
          exact (List.mem_cons.1 (owned host present)).resolve_left (by simpa using elsewhere)
      have same : ∀ other ∈ rest, ((hosts.filter fun host => ! host.account = account).filter
          fun host => host.account = other).length =
            (hosts.filter fun host => host.account = other).length := by
        intro other among
        rw [List.filter_filter]
        congr 1
        refine List.filter_congr fun host _ => ?_
        by_cases here : host.account = other
        · have different : other ≠ account := fun equal => apart (equal ▸ among)
          simp [here, different]
        · simp [here]
      rw [List.map_cons, List.sum_cons, ← List.map_congr_left same, others]
      exact (List.length_eq_length_filter_add fun host : Host => decide (host.account = account)).symm

/-- The hosts of each account that pass a test are counted in the one account they belong to. -/
theorem sum_length_filter_hostsOf (inventory : Inventory) {accounts : List String}
    (distinct : accounts.Nodup) (owned : ∀ host ∈ inventory.hosts, host.account ∈ accounts)
    (keep : Host → Bool) :
    (accounts.map fun account => ((inventory.hostsOf account).filter keep).length).sum =
      (inventory.hosts.filter keep).length := by
  have each := sum_length_hostsOf distinct (inventory.hosts.filter keep)
    fun host among => owned host (List.mem_filter.1 among).1
  simpa only [hostsOf, List.filter_filter, Bool.and_comm] using each

theorem nodup_accounts (inventory : Inventory) : inventory.accounts.Nodup := ascendingDistinct_nodup _

theorem account_mem_accounts {host : Host} (present : host ∈ inventory.hosts) :
    host.account ∈ inventory.accounts := mem_accounts.2 ⟨host, present, rfl⟩

theorem Smooth.ofAccount (smooth : Smooth (runSteps plan inventory))
    (visited : account ∈ inventory.accounts) : Smooth (accountSteps plan inventory account) :=
  fun failure among => smooth failure
    (List.mem_flatMap.2 ⟨account, visited, List.mem_cons_of_mem _ among⟩)

/-- A count of a run is the sum of what entering its accounts and their steps add to it. -/
theorem shareOf_runSteps (field : Summary → Nat) :
    shareOf field (runSteps plan inventory) =
      (inventory.accounts.map fun account =>
        field Step.enter.share + shareOf field (accountSteps plan inventory account)).sum := by
  simp [runSteps, shareOf_flatMap]

/-- Every account is entered once. -/
theorem accountsProcessed_runSteps :
    shareOf Summary.accountsProcessed (runSteps plan inventory) = inventory.accounts.length := by
  simp [shareOf_runSteps, accountsProcessed_accountSteps, Step.share]

/-- No more hosts are taken up than there are, and no fewer than are left. -/
theorem hostsScanned_runSteps (smooth : Smooth (runSteps plan inventory)) :
    let scanned := shareOf Summary.hostsScanned (runSteps plan inventory)
    (inventory.after (plan.due (plan.decisions inventory))).hosts.length ≤ scanned ∧
      scanned ≤ inventory.hosts.length := by
  intro scanned
  have distinct := nodup_accounts inventory
  have own : ∀ account ∈ inventory.accounts,
      accountDecisions plan inventory account ⊆ plan.decisions inventory :=
    fun account visited decision among => List.mem_flatMap.2 ⟨account, visited, among⟩
  have each : scanned = (inventory.accounts.map fun account =>
      shareOf Summary.hostsScanned (accountSteps plan inventory account)).sum := by
    simp [scanned, shareOf_runSteps, Step.share]
  rw [each]
  constructor
  · rw [← sum_length_hostsOf distinct _ fun host left => account_mem_accounts (mem_after.1 left).1]
    refine List.sum_le_sum fun account visited => ?_
    refine Nat.le_trans ?_ (hostsScanned_accountSteps (smooth.ofAccount visited)).1
    exact length_hostsOf_after_le (due_subset (own account visited))
  · rw [← sum_length_hostsOf distinct _ fun host present => account_mem_accounts present]
    exact List.sum_le_sum fun account visited =>
      (hostsScanned_accountSteps (smooth.ofAccount visited)).2

/-- Whether a host was found before its turn is decided in its own account. -/
theorem foundBefore_accountDecisions (visited : account ∈ inventory.accounts) {host : Host}
    (present : host ∈ inventory.hostsOf account) :
    foundBefore (accountDecisions plan inventory account) host =
      foundBefore (plan.decisions inventory) host := by
  rw [Bool.eq_iff_iff, foundBefore_iff, foundBefore_iff]
  obtain ⟨stored, here⟩ := mem_hostsOf.1 present
  constructor
  · rintro ⟨decision, among, found⟩
    exact ⟨decision, List.mem_flatMap.2 ⟨account, visited, among⟩, found⟩
  · rintro ⟨decision, among, named, before⟩
    obtain ⟨other, -, decided⟩ := List.mem_flatMap.1 among
    obtain ⟨duplicateStored, there⟩ := mem_hostsOf.1 (accountDecisions_within decided).1
    have same := inventory.distinctIds.eq_of_id duplicateStored stored named
    obtain rfl : other = account := by rw [← there, same, here]
    exact ⟨decision, decided, named, before⟩

/-- The malformed hosts skipped are those not found to be duplicates before their turn. -/
theorem malformedSkipped_runSteps (smooth : Smooth (runSteps plan inventory)) :
    shareOf Summary.malformedSkipped (runSteps plan inventory) =
      (inventory.hosts.filter fun host => malformed host &&
        ! foundBefore (plan.decisions inventory) host).length := by
  rw [shareOf_runSteps, ← sum_length_filter_hostsOf inventory (nodup_accounts inventory)
    fun host present => account_mem_accounts present]
  refine congrArg List.sum (List.map_congr_left fun account visited => ?_)
  have own : shareOf Summary.malformedSkipped (accountSteps plan inventory account) = _ :=
    malformedSkipped_accountSteps (smooth.ofAccount visited)
  rw [own, Step.share, Nat.zero_add]
  exact congrArg List.length (List.filter_congr fun host present => by
    rw [foundBefore_accountDecisions visited present])

/-- Culled candidates are left alone only when they are to be. -/
theorem culledSkipped_runSteps (included : plan.options.excludeCulled = false) {step : Step}
    (among : step ∈ runSteps plan inventory) : step.share.culledSkipped = 0 := by
  obtain ⟨account, -, here⟩ := List.mem_flatMap.1 among
  rcases List.mem_cons.1 here with rfl | own
  · rfl
  · exact culledSkipped_accountSteps included own

end Runs

end HostPruning.Pruning
