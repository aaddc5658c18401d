import HostPruning.Proofs.Conduct
import HostPruning.Proofs.Custody
import HostPruning.Proofs.Pages

/-!
# A pass follows the decisions its account calls for

In custody a pass makes the decisions of `accountDecisions`, in their order, until
something ends it early. `Follows` says so of any part of a run: what is stored is what was
stored at the start without the hosts removed, the decisions are a prefix of the expected
ones and all of them when the part was completed, and every decision was carried out unless
the run is a dry one or a removal failed. `Excuse` lists all that can make a run fail.

Each function of a pass has one lemma that says which decisions it adds. They are put
together in `passAccount_leads`; its page loop is where a shrinking inventory meets the fixed
one that the decisions are a function of.
-/

namespace HostPruning.Pruning

open Inventory Scan

variable {World : Type}

/-- The decisions that are carried out: none in a dry run. -/
def Plan.due (plan : Plan) (decisions : List Decision) : List Decision :=
  if plan.options.dryRun then [] else decisions

theorem due_of_dry {plan : Plan} (dry : plan.options.dryRun = true) (decisions : List Decision) :
    plan.due decisions = [] :=
  if_pos dry

theorem due_of_real {plan : Plan} (real : ¬ plan.options.dryRun = true) (decisions : List Decision) :
    plan.due decisions = decisions :=
  if_neg real

@[simp]
theorem due_nil (plan : Plan) : plan.due [] = [] := by
  simp [Plan.due]

@[simp]
theorem due_append (plan : Plan) (first second : List Decision) :
    plan.due (first ++ second) = plan.due first ++ plan.due second := by
  unfold Plan.due
  split <;> rfl

theorem prefix_due (plan : Plan) (decisions : List Decision) : plan.due decisions <+: decisions := by
  unfold Plan.due
  split
  · exact List.nil_prefix
  · exact List.prefix_rfl

/-- What can make a run over some accounts fail that started from an inventory: a call of the
store, an emission that aborts the run right after a removal, a policy stored for one of the
accounts that is not valid, or a page budget that an account does not fit in. -/
inductive Excuse (custody : Custody World) (plan : Plan) (scope : List String)
    (start : Inventory) (removals : List Decision) : Failure → Prop where
  | store {failure : Failure} (fails : custody.store.Fails failure) :
      Excuse custody plan scope start removals failure
  | emission {failure : Failure} {decision : Decision} {world : World}
      (aborts : plan.options.emitFailure = .abort) (last : removals.getLast? = some decision)
      (answered : (custody.emitter.emit decision.duplicate.id (DeleteEvent.ofDuplicate
        decision.duplicate decision.survivor.id (custody.eventTime world)) world).1 =
          .error failure) :
      Excuse custody plan scope start removals failure
  | policy {account : String} {policy : Lifecycle.Policy} {defect : SettingDefect}
      (visited : account ∈ scope) (stored : start.policies.get? account = some policy)
      (invalid : policy.validate = .error defect) :
      Excuse custody plan scope start removals (.setting defect)
  | pages {account : String} (short : plan.options.chunkSize = 0 ∨
      plan.pageBudget ≤ (start.hostsOf account).length) :
      Excuse custody plan scope start removals .pagesExhausted

/-- A run that has carried out what it decided. -/
structure InStep (custody : Custody World) (plan : Plan) (start : Inventory)
    (progress : Progress World) : Prop where
  held : custody.held progress.world = start.after progress.removals
  carried : progress.removals = plan.due progress.decisions

/-- A part of a run over some accounts that started from an inventory and was expected to
decide. -/
structure Follows (custody : Custody World) (plan : Plan) (scope : List String)
    (start : Inventory) (expected : List Decision) (ending : Ending) (progress : Progress World) :
    Prop where
  held : custody.held progress.world = start.after progress.removals
  removed : progress.removals <+: plan.due progress.decisions
  decided : progress.decisions <+: expected
  completed : ending = .completed → progress.decisions = expected
  interrupted : ending = .interrupted → progress.summary.interrupted = true
  carried : (∀ failure, ending ≠ .failed failure) → progress.removals = plan.due progress.decisions
  failed : ∀ failure, ending = .failed failure →
    Excuse custody plan scope start progress.removals failure

/-- A pass as a run over one account. -/
def Pass.progress (pass : Pass World) : Progress World where
  world := pass.world
  summary := pass.summary
  decisions := pass.decisions
  removals := pass.removals

@[simp]
theorem Pass.count_world (pass : Pass World) (change : Summary → Summary) :
    (pass.count change).world = pass.world := rfl

@[simp]
theorem Pass.count_duplicates (pass : Pass World) (change : Summary → Summary) :
    (pass.count change).duplicates = pass.duplicates := rfl

/-- The duplicates a pass leaves out are those it decided on. -/
def Pass.Masked (pass : Pass World) : Prop := pass.duplicates = (duplicateIds pass.decisions).reverse

namespace Pass.Masked

theorem mem_iff {pass : Pass World} (masked : pass.Masked) {id : HostId} :
    id ∈ pass.duplicates ↔ id ∈ duplicateIds pass.decisions := by
  rw [masked, List.mem_reverse]

theorem removeDuplicate {around : Surroundings World} {plan : Plan} {decision : Decision}
    {pass : Pass World} (masked : pass.Masked) :
    (removeDuplicate around plan decision pass).2.Masked := by
  have duplicates : (Pruning.removeDuplicate around plan decision pass).2.duplicates =
      decision.duplicate.id :: pass.duplicates := by
    unfold Pruning.removeDuplicate publishRemoval
    dsimp only
    repeat' split
    all_goals rfl
  rw [Pass.Masked, duplicates, removeDuplicate_decisions, masked]
  simp [duplicateIds]

/-- The hosts a pass leaves out stay the ones it decided on. -/
theorem kept (around : Surroundings World) (plan : Plan) (account : String) :
    Kept around plan account Pass.Masked where
  reads := fun _ masked => masked
  counts := fun _ masked => masked
  removes := fun _ masked => masked.removeDuplicate

end Pass.Masked

section Parts

variable {custody : Custody World} {plan : Plan} {scope : List String} {start : Inventory}
  {expected : List Decision}

/-- A part that failed after some of its decisions were carried out. -/
theorem Follows.of_failure {progress : Progress World} {failure : Failure}
    (held : custody.held progress.world = start.after progress.removals)
    (removed : progress.removals <+: plan.due progress.decisions)
    (ahead : progress.decisions <+: expected)
    (excuse : Excuse custody plan scope start progress.removals failure) :
    Follows custody plan scope start expected (.failed failure) progress where
  held := held
  removed := removed
  decided := ahead
  completed := by rintro ⟨⟩
  interrupted := by rintro ⟨⟩
  carried := fun unfailed => absurd rfl (unfailed failure)
  failed := by
    rintro _ ⟨⟩
    exact excuse

namespace InStep

variable {progress : Progress World}

/-- A call that left the inventory alone leaves a pass in step. -/
theorem inWorld {pass : Pass World} {world : World}
    (inStep : InStep custody plan start pass.progress)
    (same : custody.held world = custody.held pass.world) :
    InStep custody plan start (pass.inWorld world).progress :=
  ⟨same.trans inStep.held, inStep.carried⟩

/-- Counting leaves a pass in step. -/
theorem count {pass : Pass World} (inStep : InStep custody plan start pass.progress)
    (change : Summary → Summary) : InStep custody plan start (pass.count change).progress :=
  ⟨inStep.held, inStep.carried⟩

/-- What was removed was decided. -/
theorem removed (inStep : InStep custody plan start progress) :
    progress.removals <+: progress.decisions := by
  rw [inStep.carried]
  exact prefix_due plan progress.decisions

theorem completes (inStep : InStep custody plan start progress) :
    Follows custody plan scope start progress.decisions .completed progress where
  held := inStep.held
  removed := inStep.carried ▸ List.prefix_rfl
  decided := List.prefix_rfl
  completed := fun _ => rfl
  interrupted := by rintro ⟨⟩
  carried := fun _ => inStep.carried
  failed := by rintro failure ⟨⟩

theorem stops (inStep : InStep custody plan start progress)
    (noted : progress.summary.interrupted = true) (ahead : progress.decisions <+: expected) :
    Follows custody plan scope start expected .interrupted progress where
  held := inStep.held
  removed := inStep.carried ▸ List.prefix_rfl
  decided := ahead
  completed := by rintro ⟨⟩
  interrupted := fun _ => noted
  carried := fun _ => inStep.carried
  failed := by rintro failure ⟨⟩

theorem fails {failure : Failure} (inStep : InStep custody plan start progress)
    (ahead : progress.decisions <+: expected)
    (excuse : Excuse custody plan scope start progress.removals failure) :
    Follows custody plan scope start expected (.failed failure) progress :=
  .of_failure inStep.held (inStep.carried ▸ List.prefix_rfl) ahead excuse

end InStep

namespace Follows

variable {ending : Ending} {progress : Progress World}

/-- A part that did not come to its end is followed by nothing. -/
theorem cut {further : List Decision} (follows : Follows custody plan scope start expected ending progress)
    (incomplete : ending ≠ .completed) (onward : expected <+: further) :
    Follows custody plan scope start further ending progress where
  held := follows.held
  removed := follows.removed
  decided := follows.decided.trans onward
  completed := fun completed => absurd completed incomplete
  interrupted := follows.interrupted
  carried := follows.carried
  failed := follows.failed

/-- A part that came to its end leaves the run in step. -/
theorem inStep (follows : Follows custody plan scope start expected .completed progress) :
    InStep custody plan start progress :=
  ⟨follows.held, follows.carried (by rintro failure ⟨⟩)⟩

end Follows

/-- `Follows` for a part of a pass. -/
def Leads (custody : Custody World) (plan : Plan) (scope : List String) (start : Inventory)
    (expected : List Decision) (result : Ending × Pass World) : Prop :=
  Follows custody plan scope start expected result.1 result.2.progress

namespace Leads

variable {result : Ending × Pass World}

theorem cut {further : List Decision} (leads : Leads custody plan scope start expected result)
    (incomplete : ∀ pass, result = (.completed, pass) → False) (onward : expected <+: further) :
    Leads custody plan scope start further result :=
  Follows.cut leads (fun completed => incomplete result.2 (Prod.ext completed rfl)) onward

theorem inStep {pass : Pass World} (leads : Leads custody plan scope start expected (.completed, pass)) :
    InStep custody plan start pass.progress :=
  Follows.inStep leads

theorem decisions_eq {pass : Pass World}
    (leads : Leads custody plan scope start expected (.completed, pass)) : pass.decisions = expected :=
  Follows.completed leads rfl

end Leads

/-! ### Removals -/

/-- Handing over the event of a removal decides nothing and removes nothing. -/
theorem publishRemoval_leads {decision : Decision} {pass : Pass World}
    (inStep : InStep custody plan start pass.progress)
    (last : pass.removals.getLast? = some decision) :
    Leads custody plan scope start pass.decisions
      (publishRemoval custody.toSurroundings plan decision pass) := by
  have kept := custody.emit_keeps decision.duplicate.id (DeleteEvent.ofDuplicate
    decision.duplicate decision.survivor.id (custody.eventTime pass.world)) pass.world
  unfold publishRemoval
  dsimp only
  split
  next world emitted =>
    rw [emitted] at kept
    exact ((inStep.inWorld kept).count _).completes
  next failure world failed =>
    rw [failed] at kept
    split
    next => exact ((inStep.inWorld kept).count _).completes
    next aborts =>
      have excuse : Excuse custody plan scope start pass.removals failure :=
        .emission aborts last (congrArg Prod.fst failed)
      exact ((inStep.inWorld kept).count _).fails List.prefix_rfl excuse

/-- A duplicate that is stored is removed, and its event handed over. -/
theorem removeDuplicate_leads (decision : Decision) {pass : Pass World}
    (inStep : InStep custody plan start pass.progress)
    (stored : decision.duplicate ∈ (start.after pass.decisions).hosts) :
    Leads custody plan scope start (pass.decisions ++ [decision])
      (removeDuplicate custody.toSurroundings plan decision pass) := by
  unfold removeDuplicate
  dsimp only
  split
  next dry =>
    have carried : pass.removals = plan.due (pass.decisions ++ [decision]) := by
      rw [due_of_dry dry]
      exact inStep.carried.trans (due_of_dry dry _)
    have advanced : InStep custody plan start (pass.decide decision).progress :=
      ⟨inStep.held, carried⟩
    exact advanced.completes
  next real =>
    have removals : pass.removals = pass.decisions := inStep.carried.trans (due_of_real real _)
    have held : custody.held pass.world = start.after pass.decisions := by
      rw [← removals]
      exact inStep.held
    have described := custody.delete_describes decision.duplicate.id (pass.decide decision).world
    split
    next failure world failed =>
      rw [failed] at described
      have fails : custody.store.Fails failure := .delete (congrArg Prod.fst failed)
      -- The decision stands, but it was not carried out.
      have removed : pass.removals <+: plan.due (pass.decisions ++ [decision]) := by
        rw [due_of_real real, removals]
        exact List.prefix_append _ _
      exact Follows.of_failure (Eq.trans described inStep.held) removed List.prefix_rfl (.store fails)
    next world absent =>
      rw [absent] at described
      have gone : (custody.held pass.world).contains decision.duplicate.id = false := described.1
      rw [held, contains_of_mem stored] at gone
      cases gone
    next world deleted =>
      rw [deleted] at described
      have erased : custody.held world = start.after (pass.removals ++ [decision]) := by
        rw [removals, ← erase_after, ← held]
        exact described
      have carried : pass.removals ++ [decision] = plan.due (pass.decisions ++ [decision]) := by
        rw [due_of_real real, removals]
      have advanced : InStep custody plan start
          (((pass.decide decision).inWorld world).carryOut decision).progress :=
        ⟨erased, carried⟩
      exact publishRemoval_leads advanced List.getLast?_concat

/-- The duplicates of a survivor are removed in their order. -/
theorem removeDuplicates_leads {scanned survivor : Host} {duplicates : List Host} {pass : Pass World}
    (inStep : InStep custody plan start pass.progress)
    (stored : ∀ duplicate ∈ duplicates, duplicate ∈ (start.after pass.decisions).hosts)
    (distinct : DistinctIds duplicates) :
    Leads custody plan scope start
      (pass.decisions ++ duplicates.map fun duplicate => ⟨scanned, duplicate, survivor⟩)
      (removeDuplicates custody.toSurroundings plan scanned survivor duplicates pass) := by
  induction duplicates generalizing pass with
  | nil =>
      rw [List.map_nil, List.append_nil]
      exact inStep.completes
  | cons duplicate rest inductionHypothesis =>
      obtain ⟨duplicateApart, restDistinct⟩ := List.pairwise_cons.1 distinct
      have kept := custody.stop_keeps pass.world
      unfold removeDuplicates
      split
      next world stopped =>
        rw [stopped] at kept
        exact ((inStep.inWorld kept).count _).stops rfl (List.prefix_append _ _)
      next world goesOn =>
        rw [goesOn] at kept
        have polled := inStep.inWorld kept
        have removed : Leads custody plan scope start (pass.decisions ++ [⟨scanned, duplicate, survivor⟩])
            (removeDuplicate custody.toSurroundings plan ⟨scanned, duplicate, survivor⟩
              (pass.inWorld world)) :=
          removeDuplicate_leads _ polled (stored duplicate List.mem_cons_self)
        rw [List.map_cons, List.append_cons]
        split
        next after completed =>
          rw [completed] at removed
          have decisions := removed.decisions_eq
          have restStored : ∀ other ∈ rest, other ∈ (start.after after.decisions).hosts := by
            intro other later
            rw [decisions, after_append, mem_after]
            refine ⟨stored other (List.mem_cons_of_mem _ later), ?_⟩
            simpa [duplicateIds] using (duplicateApart other later).symm
          have others := inductionHypothesis removed.inStep restStored restDistinct
          rw [decisions] at others
          exact others
        next ended incomplete => exact removed.cut incomplete (List.prefix_append _ _)

/-! ### Scanned hosts -/

variable {clock : Lifecycle.Clock} {account : String}

/-- The candidates that a pass considers are the hosts its filter accepts in the inventory
without any of the duplicates found, whether or not these were removed. -/
theorem eligible_perm {filter : FactFilter} {found : List Host} {pass : Pass World}
    (inStep : InStep custody plan start pass.progress) (masked : pass.Masked)
    (answered : (found.filter fun host => host.account = account).Perm
      ((custody.held pass.world).candidates account filter)) :
    (eligible account pass.duplicates found).Perm
      (((start.after pass.decisions).hostsOf account).filter fun host =>
        filter.accepts host.facts) := by
  have held : custody.held pass.world = start.after pass.removals := inStep.held
  have carried : pass.removals = plan.due pass.decisions := inStep.carried
  have eligibleEq : eligible account pass.duplicates found =
      (found.filter fun host => host.account = account).filter fun host =>
        ! pass.duplicates.contains host.id := by
    simp only [eligible, List.filter_filter, Bool.and_comm]
  have unmasked : ∀ host : Host, (! pass.duplicates.contains host.id) =
      decide (host.id ∉ duplicateIds pass.decisions) := by
    intro host
    simp [masked.mem_iff]
  have removedAlready : ∀ host : Host, host.id ∉ duplicateIds pass.decisions →
      host.id ∉ duplicateIds pass.removals := by
    intro host undecided removed
    rw [carried] at removed
    exact undecided (mem_duplicateIds_mono (prefix_due plan _) removed)
  have hosts : (((custody.held pass.world).hostsOf account).filter fun host =>
      filter.accepts host.facts).filter (fun host => ! pass.duplicates.contains host.id) =
        ((start.after pass.decisions).hostsOf account).filter fun host =>
          filter.accepts host.facts := by
    rw [held, hostsOf_after, hostsOf_after]
    simp only [List.filter_filter, unmasked]
    refine List.filter_congr fun host _ => ?_
    by_cases undecided : host.id ∈ duplicateIds pass.decisions
    · simp [undecided]
    · simp [undecided, removedAlready host undecided]
  rw [eligibleEq, ← hosts]
  refine (answered.filter _).trans (List.Perm.filter _ ?_)
  exact inSurvivorOrder_perm _

theorem notCulled_perm {clock : Lifecycle.Clock} {options : Options} {left right : List Host}
    (same : left.Perm right) :
    (notCulled clock options left).Perm (notCulled clock options right) := by
  unfold notCulled
  split
  · exact same.filter _
  · exact same

/-- An answered scan decides what the inventory without the duplicates found calls for. -/
theorem resolveCandidates_leads {scanned : Host} {basis : Facts.Basis} {filter : FactFilter}
    {found : List Host} {pass : Pass World} (inStep : InStep custody plan start pass.progress)
    (masked : pass.Masked) (effective : clock = plan.clockFor start account)
    (here : scanned.account = account)
    (made : FactFilter.ofHostFacts scanned.facts = .ok (some (basis, filter)))
    (answered : (found.filter fun host => host.account = account).Perm
      ((custody.held pass.world).candidates account filter)) :
    Leads custody plan scope start (pass.decisions ++ verdicts plan (start.after pass.decisions) scanned)
      (resolveCandidates custody.toSurroundings plan clock account scanned found pass) := by
  have competing : (notCulled clock plan.options (eligible account pass.duplicates found)).Perm
      (rivals plan (start.after pass.decisions) scanned.account filter) := by
    rw [rivals, clockFor_after, here, ← effective]
    exact notCulled_perm (eligible_perm inStep masked answered)
  have distinct := rivals_distinct plan (start.after pass.decisions) scanned.account filter
  have sorted := inSurvivorOrder_congr (distinct.perm competing.symm) competing
  unfold resolveCandidates verdicts
  rw [made]
  dsimp only
  rw [sorted]
  cases order : inSurvivorOrder (rivals plan (start.after pass.decisions) scanned.account filter) with
  | nil =>
      rw [List.append_nil]
      exact (inStep.count _).completes
  | cons survivor duplicates =>
      have ranked := distinct.perm (inSurvivorOrder_perm _).symm
      rw [order] at ranked
      dsimp only
      refine removeDuplicates_leads (inStep.count _) (fun duplicate later => ?_)
        (List.pairwise_cons.1 ranked).2
      have among : duplicate ∈ inSurvivorOrder
          (rivals plan (start.after pass.decisions) scanned.account filter) := by
        rw [order]
        exact List.mem_cons_of_mem _ later
      exact (mem_rivals.1 (mem_inSurvivorOrder.1 among)).1.1

/-- A scanned host is judged against the inventory without the duplicates found. -/
theorem visitHost_leads {host : Host} {pass : Pass World}
    (inStep : InStep custody plan start pass.progress) (masked : pass.Masked)
    (effective : clock = plan.clockFor start account) (here : host.account = account) :
    Leads custody plan scope start (judge plan start pass.decisions host)
      (visitHost custody.toSurroundings plan clock account host pass) := by
  have masks : pass.duplicates.contains host.id = true ↔ host.id ∈ duplicateIds pass.decisions := by
    rw [← masked.mem_iff]
    exact List.contains_iff_mem
  unfold visitHost judge
  simp only [Pass.count_duplicates, Pass.count_world, masks]
  split
  next decided => exact (inStep.count _).completes
  next undecided =>
    cases made : FactFilter.ofHostFacts host.facts with
    | error defect =>
        simp only [verdicts, made, List.append_nil]
        exact ((inStep.count _).count _).completes
    | ok filtered =>
        cases filtered with
        | none =>
            simp only [verdicts, made, List.append_nil]
            exact (inStep.count _).completes
        | some chosen =>
            obtain ⟨basis, filter⟩ := chosen
            obtain ⟨kept, answers⟩ := custody.candidates_reads account filter pass.world
            dsimp only
            split
            next failure world failed =>
              rw [failed] at kept
              have fails : custody.store.Fails failure := .candidates (congrArg Prod.fst failed)
              exact ((inStep.count _).inWorld kept).fails (List.prefix_append _ _) (.store fails)
            next found world answered =>
              rw [answered] at kept answers
              have truthful := answers found rfl
              rw [← kept] at truthful
              have asked := (inStep.count fun summary =>
                { summary with hostsScanned := summary.hostsScanned + 1 }).inWorld kept
              exact resolveCandidates_leads asked masked effective here made truthful

/-- The hosts of a page are judged one after the other. -/
theorem visitPage_leads {hosts : List Host} {pass : Pass World}
    (inStep : InStep custody plan start pass.progress) (masked : pass.Masked)
    (effective : clock = plan.clockFor start account) (here : ∀ host ∈ hosts, host.account = account) :
    Leads custody plan scope start (hosts.foldl (judge plan start) pass.decisions)
      (visitPage custody.toSurroundings plan clock account hosts pass) := by
  induction hosts generalizing pass with
  | nil => exact inStep.completes
  | cons host rest inductionHypothesis =>
      have visited : Leads custody plan scope start (judge plan start pass.decisions host)
          (visitHost custody.toSurroundings plan clock account host pass) :=
        visitHost_leads inStep masked effective (here host List.mem_cons_self)
      have masked' := visitHost_keeps clock host
        (Pass.Masked.kept custody.toSurroundings plan account) masked
      unfold visitPage
      rw [List.foldl_cons]
      split
      next after completed =>
        rw [completed] at visited masked'
        rw [← visited.decisions_eq]
        exact inductionHypothesis visited.inStep masked'
          fun other later => here other (List.mem_cons_of_mem _ later)
      next ended incomplete => exact visited.cut incomplete (prefix_foldl_judge _ _ _ _)

/-! ### Pages -/

/-- A scan of an account that has handed over all it fetched. -/
structure Between (account : String) (plan : Plan) (scan : Scan) : Prop where
  account_eq : scan.account = account
  chunkSize_eq : scan.chunkSize = plan.options.chunkSize
  buffer_eq : scan.buffer = []
  goesOn : scan.exhausted = false

namespace Between

variable {scan : Scan} {page : List Host}

theorem initial (plan : Plan) (account : String) :
    Between account plan (Scan.start account plan.options.chunkSize) :=
  ⟨rfl, rfl, rfl, rfl⟩

/-- A page arrives in an empty buffer. -/
theorem buffer_receive (between : Between account plan scan) : (scan.receive page).buffer = page := by
  rw [Scan.receive, between.buffer_eq]
  rfl

/-- The scan ends with a page that is shorter than asked for. -/
theorem exhausted_receive (between : Between account plan scan) :
    (scan.receive page).exhausted = true ↔ page.length < plan.options.chunkSize := by
  simp [Scan.receive, between.goesOn, between.chunkSize_eq]

theorem next (between : Between account plan scan)
    (goesOn : (scan.receive page).exhausted ≠ true) :
    Between account plan { scan.receive page with buffer := [] } :=
  ⟨between.account_eq, between.chunkSize_eq, rfl, Bool.eq_false_iff.2 goesOn⟩

end Between

/-- A page budget that suffices above a cursor, unless it was too small from the start or no
budget is large enough. -/
def Room (plan : Plan) (start : Inventory) (account : String) (cursor : Option HostId)
    (budget : Nat) : Prop :=
  (plan.options.chunkSize = 0 ∨ plan.pageBudget ≤ (start.hostsOf account).length) ∨
    ((start.hostsOf account).filter (above cursor)).length < budget

namespace Room

variable {cursor : Option HostId}

theorem initial (plan : Plan) (start : Inventory) (account : String) :
    Room plan start account none plan.pageBudget := by
  by_cases short : plan.pageBudget ≤ (start.hostsOf account).length
  · exact Or.inl (Or.inr short)
  · exact Or.inr (Nat.lt_of_le_of_lt (List.length_filter_le _ _) (Nat.lt_of_not_le short))

/-- Without any budget left it never sufficed. -/
theorem short (room : Room plan start account cursor 0) :
    plan.options.chunkSize = 0 ∨ plan.pageBudget ≤ (start.hostsOf account).length :=
  room.resolve_right (Nat.not_lt_zero _)

/-- A full page uses up no more than its share. -/
theorem next {budget : Nat} {removals : List Decision} {page : List Host}
    (room : Room plan start account cursor (budget + 1))
    (taken : page = (start.after removals).page account cursor plan.options.chunkSize)
    (full : plan.options.chunkSize ≤ page.length) :
    Room plan start account (cursorAfter cursor page) budget := by
  rcases room with short | enough
  · exact Or.inl short
  · by_cases positive : plan.options.chunkSize = 0
    · exact Or.inl (Or.inl positive)
    · have less := length_above_page_lt start account cursor taken full positive
      exact Or.inr (Nat.lt_of_lt_of_le less (Nat.le_of_lt_succ enough))

end Room

/-- The pages of an account are judged as the account's hosts at the start would be. -/
theorem visitPages_leads {budget : Nat} {scan : Scan} {pass : Pass World}
    (inStep : InStep custody plan start pass.progress) (masked : pass.Masked)
    (effective : clock = plan.clockFor start account) (between : Between account plan scan)
    (room : Room plan start account scan.fetched budget) :
    Leads custody plan scope start
      (((start.hostsOf account).filter (above scan.fetched)).foldl (judge plan start) pass.decisions)
      (visitPages custody.toSurroundings plan clock account budget scan pass) := by
  induction budget generalizing scan pass with
  | zero => exact inStep.fails (prefix_foldl_judge _ _ _ _) (.pages room.short)
  | succ budget inductionHypothesis =>
      obtain ⟨kept, answers⟩ :=
        custody.page_reads scan.account scan.fetched scan.chunkSize pass.world
      unfold visitPages Scan.fetch
      cases answered : custody.store.page scan.account scan.fetched scan.chunkSize pass.world with
      | mk answer world =>
        rw [answered] at kept answers
        have asked := inStep.inWorld kept
        cases answer with
        | error failure =>
            have fails : custody.store.Fails failure := .page (congrArg Prod.fst answered)
            exact asked.fails (prefix_foldl_judge _ _ _ _) (.store fails)
        | ok page =>
            have removed : pass.removals <+: pass.decisions := inStep.removed
            have held : custody.held pass.world = start.after pass.removals := inStep.held
            have taken : page = (start.after pass.removals).page account scan.fetched
                plan.options.chunkSize := by
              rw [answers page rfl, held, between.account_eq, between.chunkSize_eq]
            have here : ∀ host ∈ page, host.account = account := by
              intro host present
              rw [taken] at present
              exact (mem_hostsOf.1 (List.mem_filter.1 (List.mem_of_mem_take present)).1).2
            have visited : Leads custody plan scope start (page.foldl (judge plan start) pass.decisions)
                (visitPage custody.toSurroundings plan clock account page (pass.inWorld world)) :=
              visitPage_leads asked masked effective here
            have masked' : (visitPage custody.toSurroundings plan clock account page
                (pass.inWorld world)).2.Masked :=
              visitPage_keeps clock page (Pass.Masked.kept custody.toSurroundings plan account) masked
            have onward := foldl_judge_page plan start account scan.fetched removed taken
            dsimp only
            rw [between.buffer_receive]
            split
            next after completed =>
              rw [completed] at visited masked'
              split
              next exhausted =>
                have last := foldl_judge_last plan start account scan.fetched removed taken
                  (between.exhausted_receive.1 exhausted)
                rw [← last, ← visited.decisions_eq]
                exact visited.inStep.completes
              next goesOn =>
                have full := Nat.le_of_not_lt fun short => goesOn (between.exhausted_receive.2 short)
                rw [← onward, ← visited.decisions_eq]
                exact inductionHypothesis visited.inStep masked' (between.next goesOn)
                  (room.next taken full)
            next ended incomplete =>
              refine visited.cut incomplete ?_
              rw [← onward]
              exact prefix_foldl_judge _ _ _ _

/-! ### The pass -/

/-- A policy stored for the account is valid. -/
def ValidPolicy (inventory : Inventory) (account : String) : Prop :=
  ∀ policy, inventory.policies.get? account = some policy → policy.validate = .ok ()

/-- A pass only comes to its end under a valid policy. -/
theorem passAccount_valid {world : World}
    (completed : (passAccount custody.toSurroundings plan account world).1 = .completed) :
    ValidPolicy (custody.held world) account := by
  intro policy stored
  obtain ⟨-, answers⟩ := custody.policy_reads account world
  unfold passAccount accountClock at completed
  cases answered : custody.store.policy account world with
  | mk answer next =>
    rw [answered] at answers completed
    cases answer with
    | error failure => cases completed
    | ok found =>
        have truthful : found = some policy := (answers found rfl).trans stored
        cases valid : policy.validate with
        | ok => rfl
        | error defect =>
            simp only [truthful, valid] at completed
            cases completed

/-- A pass over an account decides what the account calls for. -/
theorem passAccount_leads (plan : Plan) (within : account ∈ scope) {world : World}
    (held : custody.held world = start) :
    Leads custody plan scope start (accountDecisions plan start account)
      (passAccount custody.toSurroundings plan account world) := by
  obtain ⟨kept, answers⟩ := custody.policy_reads account world
  have begun : ∀ next, custody.held next = custody.held world →
      InStep custody plan start (Pass.start plan next).progress := by
    intro next same
    exact ⟨(same.trans held).trans (after_nil start).symm, (due_nil plan).symm⟩
  have visited : ∀ clock next, custody.held next = custody.held world →
      clock = plan.clockFor start account →
      Leads custody plan scope start (accountDecisions plan start account)
        (visitPages custody.toSurroundings plan clock account plan.pageBudget
          (Scan.start account plan.options.chunkSize) (Pass.start plan next)) := by
    intro clock next same effective
    have whole : (start.hostsOf account).filter (above none) = start.hostsOf account :=
      List.filter_eq_self.2 fun _ _ => rfl
    rw [accountDecisions, ← whole]
    exact visitPages_leads (begun next same) rfl effective (Between.initial plan account)
      (Room.initial plan start account)
  unfold passAccount accountClock
  cases answered : custody.store.policy account world with
  | mk answer next =>
    rw [answered] at kept answers
    cases answer with
    | error failure =>
        have fails : custody.store.Fails failure := .policy (congrArg Prod.fst answered)
        exact (begun next kept).fails List.nil_prefix (.store fails)
    | ok stored =>
        have truthful : stored = start.policies.get? account := by
          rw [← held]
          exact answers stored rfl
        cases stored with
        | none =>
            refine visited plan.clock next kept ?_
            rw [Plan.clockFor, ← truthful]
        | some policy =>
            dsimp only
            cases valid : policy.validate with
            | error defect =>
                exact (begun next kept).fails List.nil_prefix (.policy within truthful.symm valid)
            | ok =>
                refine visited (plan.clock.withPolicy policy) next kept ?_
                rw [Plan.clockFor, ← truthful]

end Parts

end HostPruning.Pruning
