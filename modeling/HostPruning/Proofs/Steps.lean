import HostPruning.Proofs.Passes

/-!
# The steps an inventory calls for

`Plan.decisions` lists the removals a run makes. `runSteps` lists all it does that can be
told from outside the store: the accounts it begins, the hosts it takes up, what it skips
and counts, and the removals, in their order. Like the decisions they are a function of the
inventory, and pages only decide which hosts are taken up. Leaving that aside, what is left
is `Plan.agenda`, in which neither the size of a page nor a dry run has a part
(`bare_runSteps`).
-/

namespace HostPruning.Pruning

open Inventory Scan

/-- Something a run does. -/
inductive Step where
  /-- Begin an account, unless asked to stop. -/
  | enter
  /-- Take up a host of a page. -/
  | scan
  /-- Skip a host with malformed facts. -/
  | malformed
  /-- Leave a number of culled candidates alone. -/
  | culled (count : Nat)
  /-- Remove a duplicate, unless asked to stop. -/
  | remove (decision : Decision)
  | fail (failure : Failure)

/-- Whether a step is more than taking up a host. -/
def Step.bare : Step → Bool
  | scan => false
  | _ => true

/-- The steps for a scanned host. -/
def hostSteps (plan : Plan) (inventory : Inventory) (scanned : Host) : List Step :=
  match FactFilter.ofHostFacts scanned.facts with
  | .error _ => [.malformed]
  | .ok none => []
  | .ok (some (_, filter)) =>
      let accepted := (inventory.hostsOf scanned.account).filter fun host => filter.accepts host.facts
      .culled (accepted.length - (rivals plan inventory scanned.account filter).length) ::
        (verdicts plan inventory scanned).map .remove

/-- The steps for a host taken up after some decisions; for one found to be a duplicate there
are none. -/
def judgedSteps (plan : Plan) (inventory : Inventory) (decided : List Decision) (host : Host) :
    List Step :=
  if host.id ∈ duplicateIds decided then [] else hostSteps plan (inventory.after decided) host

/-- The steps for some hosts, one after the other. -/
def stepsFor (plan : Plan) (inventory : Inventory) : List Decision → List Host → List Step
  | _, [] => []
  | decided, host :: rest =>
      judgedSteps plan inventory decided host ++
        stepsFor plan inventory (judge plan inventory decided host) rest

/-- The steps for the hosts of a page, which are taken up. -/
def pageSteps (plan : Plan) (inventory : Inventory) : List Decision → List Host → List Step
  | _, [] => []
  | decided, host :: rest =>
      .scan :: judgedSteps plan inventory decided host ++
        pageSteps plan inventory (judge plan inventory decided host) rest

/-- The steps for the hosts of an account above a cursor, page by page. -/
def scanSteps (plan : Plan) (inventory : Inventory) (account : String) :
    Nat → Option HostId → List Decision → List Step
  | 0, _, _ => [.fail .pagesExhausted]
  | budget + 1, cursor, decided =>
      let page := (inventory.after (plan.due decided)).page account cursor plan.options.chunkSize
      pageSteps plan inventory decided page ++
        if page.length < plan.options.chunkSize then []
        else scanSteps plan inventory account budget (cursorAfter cursor page)
          (page.foldl (judge plan inventory) decided)

/-- Some steps under the policy stored for an account, which has to be valid. -/
def underPolicy (inventory : Inventory) (account : String) (steps : List Step) : List Step :=
  match inventory.policies.get? account with
  | none => steps
  | some policy =>
      match policy.validate with
      | .error defect => [.fail (.setting defect)]
      | .ok () => steps

/-- The steps of a pass over an account. -/
def accountSteps (plan : Plan) (inventory : Inventory) (account : String) : List Step :=
  underPolicy inventory account (scanSteps plan inventory account plan.pageBudget none [])

/-- The steps of a run. -/
def runSteps (plan : Plan) (inventory : Inventory) : List Step :=
  inventory.accounts.flatMap fun account => .enter :: accountSteps plan inventory account

/-- The steps an inventory calls for, whatever the pages it is read in. -/
def Plan.agenda (plan : Plan) (inventory : Inventory) : List Step :=
  inventory.accounts.flatMap fun account =>
    .enter :: underPolicy inventory account (stepsFor plan inventory [] (inventory.hostsOf account))

/-- A page budget that no account needs more than. -/
structure Plan.Roomy (plan : Plan) (inventory : Inventory) : Prop where
  positive : plan.options.chunkSize ≠ 0
  enough : inventory.size < plan.pageBudget

/-! ### What steps depend on -/

section Agreement

variable {plan : Plan} {left right : Inventory}

theorem hostSteps_congr {scanned : Host} (agree : left.Agree scanned.account right) :
    hostSteps plan left scanned = hostSteps plan right scanned := by
  simp only [hostSteps, agree.hosts, rivals_congr agree, verdicts_congr agree]

variable {account : String} {pending : List Host}

theorem pageSteps_congr (agree : left.Agree account right)
    (belong : ∀ host ∈ pending, host.account = account) (decided : List Decision) :
    pageSteps plan left decided pending = pageSteps plan right decided pending := by
  induction pending generalizing decided with
  | nil => rfl
  | cons host rest inductionHypothesis =>
      have here : left.Agree host.account right := belong host List.mem_cons_self ▸ agree
      have others := inductionHypothesis fun other later => belong other (List.mem_cons_of_mem _ later)
      simp only [pageSteps, judgedSteps, hostSteps_congr (here.after decided), judge_congr here, others]

theorem mem_page {inventory : Inventory} {cursor : Option HostId} {limit : Nat} {host : Host}
    (present : host ∈ inventory.page account cursor limit) : host.account = account :=
  (mem_hostsOf.1 (List.mem_filter.1 (List.mem_of_mem_take present)).1).2

theorem scanSteps_congr (agree : left.Agree account right) (budget : Nat) (cursor : Option HostId)
    (decided : List Decision) :
    scanSteps plan left account budget cursor decided =
      scanSteps plan right account budget cursor decided := by
  induction budget generalizing cursor decided with
  | zero => rfl
  | succ budget inductionHypothesis =>
      have pages := (agree.after (plan.due decided)).page cursor plan.options.chunkSize
      have within : ∀ host ∈ (right.after (plan.due decided)).page account cursor
          plan.options.chunkSize, host.account = account := fun _ => mem_page
      simp only [scanSteps, pages, pageSteps_congr agree within, foldl_judge_congr agree within,
        inductionHypothesis]

/-- The steps for an account depend on its own hosts and policy alone. -/
theorem accountSteps_congr (agree : left.Agree account right) :
    accountSteps plan left account = accountSteps plan right account := by
  simp only [accountSteps, underPolicy, agree.policy, scanSteps_congr agree]

end Agreement

/-! ### Steps without pages -/

section Pages

variable {plan : Plan} {inventory : Inventory} {decided : List Decision}

theorem stepsFor_append (first second : List Host) (decided : List Decision) :
    stepsFor plan inventory decided (first ++ second) =
      stepsFor plan inventory decided first ++
        stepsFor plan inventory (first.foldl (judge plan inventory) decided) second := by
  induction first generalizing decided with
  | nil => rfl
  | cons host rest inductionHypothesis =>
      rw [List.cons_append, stepsFor, stepsFor, inductionHypothesis, List.foldl_cons, List.append_assoc]

/-- Duplicates already found may be left out of what is still to be scanned. -/
theorem stepsFor_filter {keep : Host → Bool} {pending : List Host}
    (dropped : ∀ host ∈ pending, keep host = false → host.id ∈ duplicateIds decided) :
    stepsFor plan inventory decided (pending.filter keep) = stepsFor plan inventory decided pending := by
  induction pending generalizing decided with
  | nil => rfl
  | cons host rest inductionHypothesis =>
      cases kept : keep host with
      | true =>
          rw [List.filter_cons_of_pos kept, stepsFor, stepsFor]
          refine congrArg (_ ++ ·) (inductionHypothesis fun other later lost => ?_)
          exact mem_duplicateIds_mono (prefix_judge plan inventory decided host)
            (dropped other (List.mem_cons_of_mem _ later) lost)
      | false =>
          have found : host.id ∈ duplicateIds decided := dropped host List.mem_cons_self kept
          rw [List.filter_cons_of_neg (by simp [kept]), stepsFor, judgedSteps, if_pos found,
            judge_of_decided found, List.nil_append]
          exact inductionHypothesis fun other later => dropped other (List.mem_cons_of_mem _ later)

theorem stepsFor_unremoved {removals : List Decision} (removed : removals <+: decided)
    (pending : List Host) :
    stepsFor plan inventory decided (pending.filter fun host => host.id ∉ duplicateIds removals) =
      stepsFor plan inventory decided pending :=
  stepsFor_filter fun _ _ lost => mem_duplicateIds_mono removed (by simpa using lost)

/-- All that is done for a scanned host is more than taking it up. -/
theorem bare_judgedSteps {host : Host} {step : Step}
    (among : step ∈ judgedSteps plan inventory decided host) : step.bare = true := by
  unfold judgedSteps hostSteps at among
  split at among
  · cases among
  · split at among
    · obtain rfl := List.mem_singleton.1 among
      rfl
    · cases among
    · rcases List.mem_cons.1 among with rfl | removal
      · rfl
      · obtain ⟨decision, -, rfl⟩ := List.mem_map.1 removal
        rfl

theorem filter_bare_judgedSteps (host : Host) :
    (judgedSteps plan inventory decided host).filter Step.bare =
      judgedSteps plan inventory decided host :=
  List.filter_eq_self.2 fun _ among => bare_judgedSteps among

theorem filter_bare_pageSteps (pending : List Host) (decided : List Decision) :
    (pageSteps plan inventory decided pending).filter Step.bare =
      stepsFor plan inventory decided pending := by
  induction pending generalizing decided with
  | nil => rfl
  | cons host rest inductionHypothesis =>
      rw [pageSteps, stepsFor, List.cons_append, List.filter_cons_of_neg (by simp [Step.bare]),
        List.filter_append, filter_bare_judgedSteps, inductionHypothesis]

/-- Nothing that is done for a host fails by itself. -/
theorem fail_not_mem_judgedSteps {failure : Failure} {host : Host} :
    .fail failure ∉ judgedSteps plan inventory decided host := by
  unfold judgedSteps hostSteps
  split
  · exact List.not_mem_nil
  · split <;> simp

theorem fail_not_mem_pageSteps {failure : Failure} (pending : List Host) (decided : List Decision) :
    .fail failure ∉ pageSteps plan inventory decided pending := by
  induction pending generalizing decided with
  | nil => exact List.not_mem_nil
  | cons host rest inductionHypothesis =>
      simp [pageSteps, fail_not_mem_judgedSteps, inductionHypothesis]

/-- A page budget above the number of hosts is not spent. -/
theorem pagesExhausted_not_mem_scanSteps {account : String} {budget : Nat} {cursor : Option HostId}
    (positive : plan.options.chunkSize ≠ 0)
    (enough : ((inventory.hostsOf account).filter (above cursor)).length < budget) :
    .fail .pagesExhausted ∉ scanSteps plan inventory account budget cursor decided := by
  induction budget generalizing cursor decided with
  | zero => exact absurd enough (Nat.not_lt_zero _)
  | succ budget inductionHypothesis =>
      obtain ⟨page, taken⟩ : ∃ page, page =
        (inventory.after (plan.due decided)).page account cursor plan.options.chunkSize := ⟨_, rfl⟩
      simp only [scanSteps, ← taken]
      rw [List.mem_append, not_or]
      refine ⟨fail_not_mem_pageSteps page decided, ?_⟩
      split
      next short => exact List.not_mem_nil
      next full =>
        have fewer := length_above_page_lt inventory account cursor taken (Nat.le_of_not_lt full) positive
        exact inductionHypothesis (Nat.lt_of_lt_of_le fewer (Nat.le_of_lt_succ enough))

/-- However an account is paged, the steps are those for its hosts at the start, unless the page budget
is spent. -/
theorem filter_bare_of_unexhausted {account : String} {budget : Nat} {cursor : Option HostId}
    (unexhausted : .fail .pagesExhausted ∉ scanSteps plan inventory account budget cursor decided) :
    (scanSteps plan inventory account budget cursor decided).filter Step.bare =
      stepsFor plan inventory decided ((inventory.hostsOf account).filter (above cursor)) := by
  induction budget generalizing cursor decided with
  | zero => exact absurd List.mem_cons_self unexhausted
  | succ budget inductionHypothesis =>
      obtain ⟨page, taken⟩ : ∃ page, page =
        (inventory.after (plan.due decided)).page account cursor plan.options.chunkSize := ⟨_, rfl⟩
      have removed : plan.due decided <+: decided := prefix_due plan decided
      simp only [scanSteps, ← taken] at unexhausted ⊢
      rw [List.filter_append, filter_bare_pageSteps]
      split
      next short =>
        rw [List.filter_nil, List.append_nil, page_of_short inventory account cursor taken short,
          stepsFor_unremoved removed]
      next full =>
        rw [if_neg full, List.mem_append, not_or] at unexhausted
        rw [inductionHypothesis unexhausted.2, ← stepsFor_append, ← stepsFor_unremoved removed,
          filter_page_append inventory account cursor taken, stepsFor_unremoved removed]

/-- However an account is paged, the steps are those for its hosts at the start. -/
theorem filter_bare_scanSteps {account : String} {budget : Nat} {cursor : Option HostId}
    (positive : plan.options.chunkSize ≠ 0)
    (enough : ((inventory.hostsOf account).filter (above cursor)).length < budget) :
    (scanSteps plan inventory account budget cursor decided).filter Step.bare =
      stepsFor plan inventory decided ((inventory.hostsOf account).filter (above cursor)) :=
  filter_bare_of_unexhausted (pagesExhausted_not_mem_scanSteps positive enough)

theorem filter_bare_underPolicy (account : String) (steps : List Step) :
    (underPolicy inventory account steps).filter Step.bare =
      underPolicy inventory account (steps.filter Step.bare) := by
  unfold underPolicy
  split
  · rfl
  · split <;> rfl

/-- Leaving aside which hosts are taken up, the steps of an account are those for its hosts. -/
theorem bare_accountSteps (roomy : plan.Roomy inventory) (account : String) :
    (accountSteps plan inventory account).filter Step.bare =
      underPolicy inventory account (stepsFor plan inventory [] (inventory.hostsOf account)) := by
  have everything : (inventory.hostsOf account).filter (above none) = inventory.hostsOf account :=
    List.filter_eq_self.2 fun _ _ => rfl
  have enough : ((inventory.hostsOf account).filter (above none)).length < plan.pageBudget := by
    rw [everything]
    exact Nat.lt_of_le_of_lt (List.length_filter_le _ _) roomy.enough
  rw [accountSteps, filter_bare_underPolicy, filter_bare_scanSteps roomy.positive enough, everything]

/-- Leaving aside which hosts are taken up, a run follows the agenda. -/
theorem bare_runSteps (roomy : plan.Roomy inventory) :
    (runSteps plan inventory).filter Step.bare = plan.agenda inventory := by
  unfold runSteps Plan.agenda
  rw [List.filter_flatMap]
  congr 1
  funext account
  rw [List.filter_cons_of_pos rfl, bare_accountSteps roomy]

/-- Whether two plans let the same hosts compete. -/
def Plan.SelectsLike (plan other : Plan) : Prop :=
  plan.clock = other.clock ∧ plan.options.excludeCulled = other.options.excludeCulled

/-- The agenda has no part in the size of pages, in the budget of pages, in what happens to refused
events or in whether a run is a dry one. -/
theorem agenda_congr {other : Plan} (alike : plan.SelectsLike other) (inventory : Inventory) :
    plan.agenda inventory = other.agenda inventory := by
  have rivalsAlike : rivals plan = rivals other := by
    funext inventory account filter
    simp only [rivals, notCulled, Plan.clockFor, alike.1, alike.2]
  have verdictsAlike : verdicts plan = verdicts other := by
    funext inventory scanned
    rw [verdicts, verdicts, rivalsAlike]
  have judgeAlike : judge plan = judge other := by
    funext inventory decided scanned
    rw [judge, judge, verdictsAlike]
  have stepsAlike : ∀ pending decided,
      stepsFor plan inventory decided pending = stepsFor other inventory decided pending := by
    intro pending
    induction pending with
    | nil => exact fun _ => rfl
    | cons host rest inductionHypothesis =>
        intro decided
        simp only [stepsFor, judgedSteps, hostSteps, rivalsAlike, verdictsAlike, judgeAlike,
          inductionHypothesis]
  simp only [Plan.agenda, stepsAlike]

end Pages

end HostPruning.Pruning
