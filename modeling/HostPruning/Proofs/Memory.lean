import HostPruning.Proofs.Performing
import HostPruning.Proofs.Runs

/-!
# Runs over an inventory in memory

A store in memory never fails, so what a run over it does is fixed by the inventory and by
what is outside the store. `performed_shelved` says how: looked at from outside the store,
a run is a performance of the steps its inventory calls for. What is left stored follows from
the removals (`held_run`), so comparing two runs comes down to comparing two lists of steps
and what is heard of them.
-/

namespace HostPruning.Pruning

open Inventory Scan

/-- An inventory in memory and the state of all that is outside it. -/
structure Shelf (World : Type) where
  inventory : Inventory
  world : World

variable {World : Type}

/-- Note the size of an answered page. -/
def Shelf.notePage (shelf : Shelf World) (size : Nat) : Shelf World :=
  { shelf with inventory := shelf.inventory.notePage size }

/-- What is outside a store, where there is a store beside it. -/
def Outside.beside (outside : Outside World) : Outside (Shelf World) where
  emitter :=
    { emit := fun key event =>
        (outside.emitter.emit key event).onPart Shelf.world fun world shelf => { shelf with world }
      flush := outside.emitter.flush.onPart Shelf.world fun world shelf => { shelf with world } }
  stopRequested shelf :=
    (outside.stopRequested shelf.world).map id fun world => { shelf with world }
  eventTime shelf := outside.eventTime shelf.world

/-- An inventory in memory that only the run changes. -/
def Outside.custody (outside : Outside World) : Custody (Shelf World) where
  store := Inventory.store.onPart Shelf.inventory fun inventory shelf => { shelf with inventory }
  emitter := outside.beside.emitter
  stopRequested := outside.beside.stopRequested
  eventTime := outside.beside.eventTime
  held shelf := { shelf.inventory with pageSizes := [] }
  accounts_reads shelf := by
    refine ⟨rfl, ?_⟩
    rintro listed answered account
    cases answered
    exact Iff.rfl
  page_reads account after limit shelf := by
    refine ⟨rfl, ?_⟩
    rintro page answered
    cases answered
    rfl
  candidates_reads account filter shelf := by
    refine ⟨rfl, ?_⟩
    rintro found answered
    cases answered
    refine List.Perm.of_eq (List.filter_eq_self.2 fun host present => ?_)
    have stored := (List.mem_filter.1 (mem_inSurvivorOrder.1 present)).1
    exact decide_eq_true (mem_hostsOf.1 stored).2
  policy_reads account shelf := by
    refine ⟨rfl, ?_⟩
    rintro policy answered
    cases answered
    rfl
  delete_describes id shelf := by
    dsimp only [HostStore.onPart, Call.onPart]
    cases stored : shelf.inventory.contains id with
    | true =>
        simp only [Inventory.store, stored]
        rfl
    | false =>
        simp only [Inventory.store, stored]
        exact ⟨stored, rfl⟩
  emit_keeps _ _ _ := rfl
  flush_keeps _ := rfl
  stop_keeps _ := rfl

/-- A pass as it is seen from outside the store. -/
def Pass.shelved (pass : Pass (Shelf World)) : Pass World := (Frame.ofView Shelf.world).around pass

/-- A run as it is seen from outside the store. -/
def Progress.shelved (progress : Progress (Shelf World)) : Progress World where
  world := progress.world.world
  summary := progress.summary
  decisions := progress.decisions
  removals := progress.removals

theorem Outside.beside_fits (outside : Outside World) :
    (Frame.ofView Shelf.world).Fits outside.beside outside :=
  Frame.fits_ofView (fun _ => rfl) fun _ _ => rfl

/-- A store in memory answers every call. -/
theorem Outside.custody_answers (outside : Outside World) (failure : Failure) :
    ¬ outside.custody.store.Fails failure := by
  intro fails
  cases fails with
  | accounts answered => cases answered
  | page answered => cases answered
  | candidates answered => cases answered
  | policy answered => cases answered
  | @delete id shelf failure answered =>
      dsimp only [Outside.custody, HostStore.onPart, Call.onPart, Inventory.store] at answered
      split at answered <;> cases answered

/-- Go on behind a part of a pass, unless it ended the pass. -/
def andThen (result : Ending × Pass World) (more : Pass World → Ending × Pass World) :
    Ending × Pass World :=
  match result with
  | (.completed, pass) => more pass
  | ended => ended

/-- Parts of a pass that look alike one after the other look alike together. -/
theorem shelved_andThen {result : Ending × Pass (Shelf World)} {other : Ending × Pass World}
    {more : Pass (Shelf World) → Ending × Pass (Shelf World)}
    {otherMore : Pass World → Ending × Pass World}
    (alike : result.map id Pass.shelved = other)
    (onward : ∀ after, result = (.completed, after) →
      (more after).map id Pass.shelved = otherMore after.shelved) :
    (andThen result more).map id Pass.shelved = andThen other otherMore := by
  subst alike
  obtain ⟨ending, after⟩ := result
  cases ending with
  | completed => exact onward after rfl
  | interrupted => rfl
  | failed failure => rfl

section Passes

variable {outside : Outside World} {plan : Plan} {start : Inventory}

/-- A duplicate that is stored is removed as if there were no store. -/
theorem removeDuplicate_shelved (decision : Decision) {pass : Pass (Shelf World)}
    (inStep : InStep outside.custody plan start pass.progress)
    (stored : decision.duplicate ∈ (start.after pass.decisions).hosts) :
    (removeDuplicate outside.custody.toSurroundings plan decision pass).map id Pass.shelved =
      removeDuplicate outside.unstocked plan decision pass.shelved := by
  rw [Outside.removeDuplicate_unstocked]
  unfold removeDuplicate
  dsimp only
  split
  next dry => rfl
  next real =>
    have removals : pass.removals = pass.decisions := inStep.carried.trans (due_of_real real _)
    have held : outside.custody.held pass.world = start.after pass.decisions := by
      rw [← removals]
      exact inStep.held
    have contained : pass.world.inventory.contains decision.duplicate.id = true := by
      have seen : (outside.custody.held pass.world).contains decision.duplicate.id = true := by
        rw [held]
        exact contains_of_mem stored
      exact seen
    have deleted : outside.custody.store.delete decision.duplicate.id (pass.decide decision).world =
        (.ok .deleted, { pass.world with
          inventory := pass.world.inventory.erase decision.duplicate.id }) := by
      simp [Outside.custody, HostStore.onPart, Call.onPart, Inventory.store, Pass.decide, contained]
    rw [deleted]
    exact (Frame.publishRemoval_framed outside.beside_fits decision _).symm

/-- The duplicates of a survivor are removed as if there were no store. -/
theorem removeDuplicates_shelved {scanned survivor : Host} {duplicates : List Host}
    {pass : Pass (Shelf World)} (inStep : InStep outside.custody plan start pass.progress)
    (stored : ∀ duplicate ∈ duplicates, duplicate ∈ (start.after pass.decisions).hosts)
    (distinct : DistinctIds duplicates) :
    (removeDuplicates outside.custody.toSurroundings plan scanned survivor duplicates pass).map id
        Pass.shelved =
      outside.perform plan (duplicates.map fun duplicate => .remove ⟨scanned, duplicate, survivor⟩)
        pass.shelved := by
  induction duplicates generalizing pass with
  | nil => rfl
  | cons duplicate rest inductionHypothesis =>
      obtain ⟨duplicateApart, restDistinct⟩ := List.pairwise_cons.1 distinct
      have seen : outside.stopRequested pass.shelved.world =
        (outside.custody.stopRequested pass.world).map id Shelf.world := rfl
      have kept := outside.custody.stop_keeps pass.world
      unfold removeDuplicates
      rw [List.map_cons, Outside.perform, Outside.take, Outside.unlessStopped, seen]
      cases polled : outside.custody.stopRequested pass.world with
      | mk stopped world =>
          rw [polled] at kept
          cases stopped with
          | true => rfl
          | false =>
              have asked := inStep.inWorld kept
              have here := stored duplicate List.mem_cons_self
              have leads : Leads outside.custody plan [] start
                  (pass.decisions ++ [⟨scanned, duplicate, survivor⟩])
                  (removeDuplicate outside.custody.toSurroundings plan ⟨scanned, duplicate, survivor⟩
                    (pass.inWorld world)) := removeDuplicate_leads _ asked here
              have removed := removeDuplicate_shelved ⟨scanned, duplicate, survivor⟩ asked here
              dsimp only
              refine shelved_andThen removed fun after completed => ?_
              rw [completed] at leads
              refine inductionHypothesis leads.inStep (fun other later => ?_) restDistinct
              rw [leads.decisions_eq, after_append, mem_after]
              refine ⟨stored other (List.mem_cons_of_mem _ later), ?_⟩
              simpa [duplicateIds] using (duplicateApart other later).symm

variable {clock : Lifecycle.Clock} {account : String}

/-- An answered scan takes the steps for the scanned host. -/
theorem resolveCandidates_shelved {scanned : Host} {basis : Facts.Basis} {filter : FactFilter}
    {pass : Pass (Shelf World)} (inStep : InStep outside.custody plan start pass.progress)
    (masked : pass.Masked) (here : scanned.account = account)
    (effective : clock = plan.clockFor start account)
    (made : FactFilter.ofHostFacts scanned.facts = .ok (some (basis, filter))) :
    (resolveCandidates outside.custody.toSurroundings plan clock account scanned
        (pass.world.inventory.candidates account filter) pass).map id Pass.shelved =
      outside.perform plan (hostSteps plan (start.after pass.decisions) scanned) pass.shelved := by
  subst here
  have answered := ((outside.custody.candidates_reads scanned.account filter) pass.world).2 _ rfl
  have accepted := eligible_perm inStep masked answered
  have competing : (notCulled clock plan.options
      (eligible scanned.account pass.duplicates
        (pass.world.inventory.candidates scanned.account filter))).Perm
          (rivals plan (start.after pass.decisions) scanned.account filter) := by
    rw [rivals, clockFor_after, ← effective]
    exact notCulled_perm accepted
  have distinct := rivals_distinct plan (start.after pass.decisions) scanned.account filter
  have sorted := inSurvivorOrder_congr (distinct.perm competing.symm) competing
  unfold resolveCandidates hostSteps verdicts
  rw [made]
  dsimp only
  rw [sorted, ← accepted.length_eq, ← competing.length_eq]
  cases order : inSurvivorOrder (rivals plan (start.after pass.decisions) scanned.account filter) with
  | nil => rfl
  | cons survivor duplicates =>
      have ranked := distinct.perm (inSurvivorOrder_perm _).symm
      rw [order] at ranked
      dsimp only
      rw [List.map_map]
      refine removeDuplicates_shelved (inStep.count _) (fun duplicate later => ?_)
        (List.pairwise_cons.1 ranked).2
      have among : duplicate ∈ inSurvivorOrder
          (rivals plan (start.after pass.decisions) scanned.account filter) := by
        rw [order]
        exact List.mem_cons_of_mem _ later
      exact (mem_rivals.1 (mem_inSurvivorOrder.1 among)).1.1

/-- A visited host is taken up, then its steps are taken. -/
theorem visitHost_shelved {host : Host} {pass : Pass (Shelf World)}
    (inStep : InStep outside.custody plan start pass.progress) (masked : pass.Masked)
    (here : host.account = account) (effective : clock = plan.clockFor start account) :
    (visitHost outside.custody.toSurroundings plan clock account host pass).map id Pass.shelved =
      outside.perform plan (.scan :: judgedSteps plan start pass.decisions host) pass.shelved := by
  have masks : pass.duplicates.contains host.id = true ↔ host.id ∈ duplicateIds pass.decisions := by
    rw [← masked.mem_iff]
    exact List.contains_iff_mem
  unfold visitHost judgedSteps
  simp only [Pass.count_duplicates, Pass.count_world, masks]
  split
  next decided => rfl
  next undecided =>
    cases made : FactFilter.ofHostFacts host.facts with
    | error defect =>
        simp only [hostSteps, made]
        rfl
    | ok filtered =>
        cases filtered with
        | none =>
            simp only [hostSteps, made]
            rfl
        | some chosen =>
            obtain ⟨basis, filter⟩ := chosen
            have counted := inStep.count fun summary =>
              { summary with hostsScanned := summary.hostsScanned + 1 }
            exact resolveCandidates_shelved counted masked here effective made

/-- The steps for a page are taken host by host. -/
theorem visitPage_shelved {hosts : List Host} {pass : Pass (Shelf World)}
    (inStep : InStep outside.custody plan start pass.progress) (masked : pass.Masked)
    (here : ∀ host ∈ hosts, host.account = account) (effective : clock = plan.clockFor start account) :
    (visitPage outside.custody.toSurroundings plan clock account hosts pass).map id Pass.shelved =
      outside.perform plan (pageSteps plan start pass.decisions hosts) pass.shelved := by
  induction hosts generalizing pass with
  | nil => rfl
  | cons host rest inductionHypothesis =>
      have hostHere := here host List.mem_cons_self
      have leads : Leads outside.custody plan [] start (judge plan start pass.decisions host)
          (visitHost outside.custody.toSurroundings plan clock account host pass) :=
        visitHost_leads inStep masked effective hostHere
      have masked' := visitHost_keeps clock host
        (Pass.Masked.kept outside.custody.toSurroundings plan account) masked
      rw [pageSteps, Outside.perform_append]
      refine shelved_andThen (visitHost_shelved inStep masked hostHere effective)
        fun after completed => ?_
      rw [completed] at leads masked'
      rw [← leads.decisions_eq]
      exact inductionHypothesis leads.inStep masked' fun other later =>
        here other (List.mem_cons_of_mem _ later)

/-- The steps for an account are taken page by page. -/
theorem visitPages_shelved {budget : Nat} {scan : Scan} {pass : Pass (Shelf World)}
    (inStep : InStep outside.custody plan start pass.progress) (masked : pass.Masked)
    (between : Between account plan scan) (effective : clock = plan.clockFor start account) :
    (visitPages outside.custody.toSurroundings plan clock account budget scan pass).map id
        Pass.shelved =
      outside.perform plan (scanSteps plan start account budget scan.fetched pass.decisions)
        pass.shelved := by
  induction budget generalizing scan pass with
  | zero => rfl
  | succ budget inductionHypothesis =>
      obtain ⟨page, taken⟩ : ∃ page, page = (start.after (plan.due pass.decisions)).page account
        scan.fetched plan.options.chunkSize := ⟨_, rfl⟩
      have here : ∀ host ∈ page, host.account = account := fun host present => mem_page (taken ▸ present)
      have carried : pass.removals = plan.due pass.decisions := inStep.carried
      have held : outside.custody.held pass.world = start.after pass.removals := inStep.held
      have answered : outside.custody.store.page scan.account scan.fetched scan.chunkSize pass.world =
          (.ok page, pass.world.notePage page.length) := by
        have stored : pass.world.inventory.page account scan.fetched plan.options.chunkSize = page := by
          rw [taken, ← carried, ← held]
          rfl
        rw [between.account_eq, between.chunkSize_eq, ← stored]
        rfl
      have asked : InStep outside.custody plan start
          (pass.inWorld (pass.world.notePage page.length)).progress := inStep.inWorld rfl
      have leads : Leads outside.custody plan [] start (page.foldl (judge plan start) pass.decisions)
          (visitPage outside.custody.toSurroundings plan clock account page
            (pass.inWorld (pass.world.notePage page.length))) :=
        visitPage_leads asked masked effective here
      have masked' : (visitPage outside.custody.toSurroundings plan clock account page
          (pass.inWorld (pass.world.notePage page.length))).2.Masked :=
        visitPage_keeps clock page (Pass.Masked.kept outside.custody.toSurroundings plan account) masked
      unfold visitPages Scan.fetch scanSteps
      rw [answered]
      dsimp only
      rw [between.buffer_receive, ← taken, Outside.perform_append]
      refine shelved_andThen (visitPage_shelved asked masked here effective) fun after completed => ?_
      rw [completed] at leads masked'
      have exhausts : (scan.receive page).exhausted = true ↔ page.length < plan.options.chunkSize :=
        between.exhausted_receive
      split
      next exhausted =>
        rw [if_pos (exhausts.1 exhausted)]
        rfl
      next goesOn =>
        rw [if_neg (mt exhausts.2 goesOn), ← leads.decisions_eq]
        exact inductionHypothesis leads.inStep masked' (between.next goesOn)

/-- Seen from outside the store, a pass over an account takes the account's steps. -/
theorem passAccount_shelved (plan : Plan) (account : String) {shelf : Shelf World}
    (held : outside.custody.held shelf = start) :
    (passAccount outside.custody.toSurroundings plan account shelf).map id Pass.shelved =
      outside.perform plan (accountSteps plan start account) (Pass.start plan shelf.world) := by
  have begun : InStep outside.custody plan start (Pass.start plan shelf).progress :=
    ⟨held.trans (after_nil start).symm, (due_nil plan).symm⟩
  have visited : ∀ clock, clock = plan.clockFor start account →
      (visitPages outside.custody.toSurroundings plan clock account plan.pageBudget
        (Scan.start account plan.options.chunkSize) (Pass.start plan shelf)).map id Pass.shelved =
      outside.perform plan (scanSteps plan start account plan.pageBudget none [])
        (Pass.start plan shelf.world) :=
    fun _ effective => visitPages_shelved begun rfl (Between.initial plan account) effective
  have policy : outside.custody.store.policy account shelf =
      (.ok (start.policies.get? account), shelf) := by
    rw [← held]
    rfl
  unfold passAccount accountClock accountSteps underPolicy
  rw [policy]
  cases stored : start.policies.get? account with
  | none => exact visited plan.clock (by rw [Plan.clockFor, stored])
  | some policy =>
      dsimp only
      cases valid : policy.validate with
      | error defect => rfl
      | ok => exact visited (plan.clock.withPolicy policy) (by rw [Plan.clockFor, stored])

/-- Without a request to stop, a pass comes to its end or fails. -/
theorem passAccount_uninterrupted (unasked : ∀ world, (outside.stopRequested world).1 = false)
    (plan : Plan) (account : String) (shelf : Shelf World) :
    (passAccount outside.custody.toSurroundings plan account shelf).1 ≠ .interrupted := by
  have seen := passAccount_shelved plan account (rfl : outside.custody.held shelf = _)
  have performed := perform_uninterrupted unasked plan
    (accountSteps plan (outside.custody.held shelf) account) (Pass.start plan shelf.world)
  rw [← seen] at performed
  exact performed

end Passes

/-! ### Runs -/

section Runs

variable {outside : Outside World} {plan : Plan} {start : Inventory}

/-- A pass that has not begun an account. -/
def Pass.blank (plan : Plan) (world : World) : Pass World where
  world := world
  duplicates := []
  summary := { dryRun := plan.options.dryRun }
  decisions := []
  removals := []

/-- Going on with a fresh pass is going on behind what came before it. -/
theorem perform_behind (before : Pass World) (steps : List Step) (pass : Pass World) :
    outside.perform plan steps ((Frame.behind before).around pass) =
      (outside.perform plan steps pass).map id (Frame.behind before).around :=
  Frame.perform_framed (Frame.fits_behind outside before) (fun _ _ => Frame.passes_behind before _) pass

/-- Beginning an account is going on with a fresh pass. -/
theorem behind_start (plan : Plan) (before : Pass World) (world : World) :
    (Frame.behind before).around (Pass.start plan world) =
      (before.inWorld world).count fun summary =>
        { summary with accountsProcessed := summary.accountsProcessed + 1 } := by
  simp [Frame.around, Frame.behind, Pass.start, Pass.inWorld, Pass.count, Summary.absorb]

/-- Performing the steps of an account is what a run does with the account: poll, let a fresh pass
take the steps, and go on behind both. -/
theorem perform_account (steps rest : List Step) (before : Pass World) :
    outside.perform plan (.enter :: (steps ++ rest)) before =
      match outside.stopRequested before.world with
      | (true, world) =>
          (.interrupted, (before.inWorld world).count fun summary => { summary with interrupted := true })
      | (false, world) =>
          match outside.perform plan steps (Pass.start plan world) with
          | (.completed, pass) => outside.perform plan rest ((Frame.behind before).around pass)
          | (ending, pass) => (ending, (Frame.behind before).around pass) := by
  rw [Outside.perform, Outside.take, Outside.unlessStopped]
  cases outside.stopRequested before.world with
  | mk stopped world =>
      cases stopped with
      | true => rfl
      | false =>
          dsimp only
          rw [← behind_start, Outside.perform_append, perform_behind]
          cases outside.perform plan steps (Pass.start plan world) with
          | mk ending pass => cases ending <;> rfl

/-- Seen from outside the store, a run over accounts takes their steps, one account after the
other. -/
theorem visitAccounts_shelved {accounts : List String} {progress : Progress (Shelf World)}
    (inStep : InStep outside.custody plan start progress) (distinct : accounts.Nodup)
    (foreign : Foreign start accounts progress.decisions)
    {before : Pass World} (seen : before.progress = progress.shelved) :
    (visitAccounts outside.custody.toSurroundings plan accounts progress).map id Progress.shelved =
      (outside.perform plan
        (accounts.flatMap fun account => .enter :: accountSteps plan start account) before).map id
          Pass.progress := by
  induction accounts generalizing progress before with
  | nil => exact congrArg (Prod.mk Ending.completed) seen.symm
  | cons account rest inductionHypothesis =>
      obtain ⟨accountApart, restDistinct⟩ := List.nodup_cons.1 distinct
      obtain ⟨world, duplicates, summary, decisions, removals⟩ := before
      simp only [Pass.progress, Progress.shelved, Progress.mk.injEq] at seen
      obtain ⟨rfl, rfl, rfl, rfl⟩ := seen
      have seen : outside.stopRequested progress.world.world =
        (outside.custody.stopRequested progress.world).map id Shelf.world := rfl
      have kept := outside.custody.stop_keeps progress.world
      unfold visitAccounts
      rw [List.flatMap_cons, List.cons_append, perform_account]
      cases asked : outside.custody.stopRequested progress.world with
      | mk stopped shelf =>
          rw [asked] at kept seen
          rw [seen]
          cases stopped with
          | true => rfl
          | false =>
              have agree : (start.after progress.removals).Agree account start :=
                foreign.agree inStep.removed.subset List.mem_cons_self
              have held : outside.custody.held shelf = start.after progress.removals :=
                kept.trans inStep.held
              have leads : Leads outside.custody plan [account] (start.after progress.removals)
                  (accountDecisions plan (start.after progress.removals) account)
                  (passAccount outside.custody.toSurroundings plan account shelf) :=
                passAccount_leads plan (List.mem_singleton_self account) held
              rw [accountDecisions_congr agree] at leads
              have taken := passAccount_shelved plan account held
              rw [accountSteps_congr agree] at taken
              dsimp only [Prod.map_apply, id_eq]
              rw [← taken]
              cases visited : passAccount outside.custody.toSurroundings plan account shelf with
              | mk ending pass =>
                  rw [visited] at leads
                  have follows := leads.absorb inStep
                  cases ending with
                  | completed =>
                      refine inductionHypothesis follows.inStep restDistinct ?_ rfl
                      rw [follows.completed rfl]
                      exact foreign.next accountApart plan
                  | interrupted => rfl
                  | failed failure => rfl

/-- A store in memory lists its accounts, which are those that own a host. -/
theorem scanAccounts_shelved (outside : Outside World) (shelf : Shelf World) :
    scanAccounts outside.custody.store shelf = (.ok (outside.custody.held shelf).accounts, shelf) := by
  have accounts : ascendingDistinct shelf.inventory.accounts =
      (outside.custody.held shelf).accounts := by
    refine ascendingDistinct_congr fun account => ?_
    rw [Inventory.accounts, mem_ascendingDistinct]
    rfl
  rw [← accounts]
  rfl

/-- What a run over a store in memory performs is a pass over each of its accounts, ascending. -/
theorem performed_visits (outside : Outside World) (plan : Plan) (shelf : Shelf World) :
    performed outside.custody.toSurroundings plan shelf =
      visitAccounts outside.custody.toSurroundings plan shelf.inventory.accounts
        (Progress.start plan shelf) := by
  unfold performed
  rw [scanAccounts_shelved]
  rfl

/-- Seen from outside the store, a run takes the steps its inventory calls for. -/
theorem performed_shelved (outside : Outside World) (plan : Plan) (shelf : Shelf World) :
    (performed outside.custody.toSurroundings plan shelf).map id Progress.shelved =
      (outside.perform plan (runSteps plan (outside.custody.held shelf))
        (Pass.blank plan shelf.world)).map id Pass.progress := by
  rw [performed_visits]
  exact visitAccounts_shelved ⟨(after_nil _).symm, (due_nil plan).symm⟩
    (ascendingDistinct_nodup _) .nil rfl

/-- A run is what it performs, then a flush. -/
theorem run_shelved (outside : Outside World) (plan : Plan) (shelf : Shelf World) :
    run outside.custody.toSurroundings plan shelf =
      finish outside.custody.toSurroundings
        ((performed outside.custody.toSurroundings plan shelf).1.outcome
          (performed outside.custody.toSurroundings plan shelf).2.summary)
        (performed outside.custody.toSurroundings plan shelf).2.world := by
  unfold run performed
  rw [scanAccounts_shelved]

/-- A run over an inventory in memory leaves it without the hosts it removed. -/
theorem inventory_run (outside : Outside World) (plan : Plan) (inventory : Inventory) (world : World) :
    let left := (run outside.custody.toSurroundings plan ⟨inventory, world⟩).2.inventory
    left.hosts = (inventory.after (removed outside.custody plan ⟨inventory, world⟩)).hosts ∧
      left.policies = inventory.policies := by
  have held := held_run outside.custody plan ⟨inventory, world⟩
  have hosts := congrArg Inventory.hosts held
  have policies := congrArg Inventory.policies held
  exact ⟨hosts, policies⟩

variable {Seen : Type}

/-- What a view shows of a run, leaving aside how many hosts were taken up. -/
def Progress.observed (view : World → Seen) (progress : Progress World) : Progress Seen where
  world := view progress.world
  summary := { progress.summary with hostsScanned := 0 }
  decisions := progress.decisions
  removals := progress.removals

/-- Seen through a view that calls respect, and leaving aside how many hosts were taken up, a run
follows the agenda of its inventory, whatever the pages it is read in. -/
theorem performed_observed {outside : Outside World} {other : Outside Seen} {view : World → Seen}
    (fits : (Frame.ofView view).Fits outside other) {shelf : Shelf World}
    (roomy : plan.Roomy shelf.inventory) :
    (performed outside.custody.toSurroundings plan shelf).map id
        (Progress.observed (view ∘ Shelf.world)) =
      (other.perform plan (plan.agenda (outside.custody.held shelf))
        (Pass.blank plan (view shelf.world))).map id Pass.progress := by
  have framed : ∀ steps, other.perform plan steps (Pass.blank plan (view shelf.world)) =
      (outside.perform plan steps (Pass.blank plan shelf.world)).map id (Frame.ofView view).around :=
    fun steps => Frame.perform_framed fits (fun _ _ => Frame.passes_ofView view _)
      (Pass.blank plan shelf.world)
  have roomyHeld : plan.Roomy (outside.custody.held shelf) := ⟨roomy.positive, roomy.enough⟩
  calc
    _ = ((performed outside.custody.toSurroundings plan shelf).map id Progress.shelved).map id
          (Progress.observed view) := rfl
    _ = ((outside.perform plan (runSteps plan (outside.custody.held shelf))
          (Pass.blank plan shelf.world)).map id Pass.progress).map id (Progress.observed view) := by
        rw [performed_shelved]
    _ = ((other.perform plan (runSteps plan (outside.custody.held shelf))
          (Pass.blank plan (view shelf.world))).map id Frame.unscanned.around).map id
            Pass.progress := by
        rw [framed]
        rfl
    _ = _ := by
        rw [Frame.perform_unscanned, bare_runSteps roomyHeld]
        rfl

end Runs

end HostPruning.Pruning
