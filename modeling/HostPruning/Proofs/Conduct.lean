import Mathlib.Logic.Relation
import HostPruning.Pruning.Run
import HostPruning.Proofs.Outranking

/-!
# What a run keeps in any surroundings

Whatever store, emitter and stop signal a run meets, it does three things: it makes calls
that only read, it counts, and it removes duplicates that an answer of the store gave rise
to. `passAccount_keeps` carries a property kept by these three through a pass, and
`performed_keeps` carries one kept by passes through a run, so a property of all runs is
proved from one removal.

`performed` is a run up to its flush. Three properties are carried here: the counts of
removals and events (`performed_tallied`), where a decision comes from
(`performed_sourced`), and that a run without decisions only reads (`performed_quiet`).
-/

namespace HostPruning.Pruning

variable {World : Type}

/-- The calls that neither remove a host nor hand over an event, from world to world. -/
inductive Reading (around : Surroundings World) : World → World → Prop where
  | accounts (world : World) : Reading around world (around.store.accounts world).2
  | page (account : String) (after : Option HostId) (limit : Nat) (world : World) :
      Reading around world (around.store.page account after limit world).2
  | candidates (account : String) (filter : FactFilter) (world : World) :
      Reading around world (around.store.candidates account filter world).2
  | policy (account : String) (world : World) :
      Reading around world (around.store.policy account world).2
  | stop (world : World) : Reading around world (around.stopRequested world).2

/-- A decision that the store's answer to the scanned host's filter gave rise to. -/
structure Sourced (around : Surroundings World) (account : String) (decision : Decision) : Prop where
  answered : ∃ basis filter world found,
    FactFilter.ofHostFacts decision.scanned.facts = .ok (some (basis, filter)) ∧
      (around.store.candidates account filter world).1 = .ok found ∧
        decision.duplicate ∈ found ∧ decision.survivor ∈ found
  duplicate_account : decision.duplicate.account = account
  survivor_account : decision.survivor.account = account

/-- The counts of duplicates, removals and events. -/
def Summary.tally (summary : Summary) : Nat × Nat × Nat × Nat :=
  (summary.duplicatesFound, summary.hostsDeleted, summary.eventsEmitted, summary.eventsFailed)

/-- A property of passes that everything a pass does keeps. -/
structure Kept (around : Surroundings World) (plan : Plan) (account : String)
    (motive : Pass World → Prop) : Prop where
  reads : ∀ {pass world}, Reading around pass.world world → motive pass → motive (pass.inWorld world)
  counts : ∀ {pass change}, (∀ summary : Summary, (change summary).tally = summary.tally) →
    motive pass → motive (pass.count change)
  removes : ∀ {pass decision}, Sourced around account decision → motive pass →
    motive (removeDuplicate around plan decision pass).2

section Passes

variable {around : Surroundings World} {plan : Plan} {clock : Lifecycle.Clock} {account : String}
  {motive : Pass World → Prop}

theorem removeDuplicates_keeps (kept : Kept around plan account motive) {scanned survivor : Host}
    {duplicates : List Host}
    (sourced : ∀ duplicate ∈ duplicates, Sourced around account ⟨scanned, duplicate, survivor⟩)
    {pass : Pass World} (holds : motive pass) :
    motive (removeDuplicates around plan scanned survivor duplicates pass).2 := by
  induction duplicates generalizing pass with
  | nil => exact holds
  | cons duplicate rest inductionHypothesis =>
      have polled := kept.reads (Reading.stop pass.world) holds
      unfold removeDuplicates
      split
      next world stopped =>
        rw [stopped] at polled
        dsimp only at polled ⊢
        refine kept.counts ?_ polled
        exact fun _ => rfl
      next world goesOn =>
        rw [goesOn] at polled
        have removed := kept.removes (sourced duplicate List.mem_cons_self) polled
        split
        next after completed =>
          rw [completed] at removed
          exact inductionHypothesis
            (fun other later => sourced other (List.mem_cons_of_mem _ later)) removed
        next => exact removed

/-- Whom a pass considers was in the answer and belongs to the account. -/
theorem mem_eligible {duplicates : List HostId} {found : List Host} {host : Host} :
    host ∈ eligible account duplicates found ↔
      host ∈ found ∧ host.account = account ∧ host.id ∉ duplicates := by
  simp [eligible]

theorem resolveCandidates_keeps (kept : Kept around plan account motive) {scanned : Host}
    {basis : Facts.Basis} {filter : FactFilter} {world : World} {found : List Host}
    (made : FactFilter.ofHostFacts scanned.facts = .ok (some (basis, filter)))
    (answered : (around.store.candidates account filter world).1 = .ok found)
    {pass : Pass World} (holds : motive pass) :
    motive (resolveCandidates around plan clock account scanned found pass).2 := by
  have considered : ∀ host ∈ inSurvivorOrder (notCulled clock plan.options
      (eligible account pass.duplicates found)), host ∈ found ∧ host.account = account := by
    intro host present
    have kept := mem_inSurvivorOrder.1 present
    have among : host ∈ eligible account pass.duplicates found := by
      unfold notCulled at kept
      split at kept
      · exact (List.mem_filter.1 kept).1
      · exact kept
    exact ⟨(mem_eligible.1 among).1, (mem_eligible.1 among).2.1⟩
  unfold resolveCandidates
  dsimp only
  split
  next =>
    dsimp only
    refine kept.counts ?_ holds
    exact fun _ => rfl
  next survivor duplicates sorted =>
    rw [sorted] at considered
    have survivorFound := considered survivor List.mem_cons_self
    refine removeDuplicates_keeps kept (fun duplicate later => ?_) (kept.counts ?_ holds)
    · have duplicateFound := considered duplicate (List.mem_cons_of_mem _ later)
      exact ⟨⟨basis, filter, world, found, made, answered, duplicateFound.1, survivorFound.1⟩,
        duplicateFound.2, survivorFound.2⟩
    · exact fun _ => rfl

theorem visitHost_keeps (clock : Lifecycle.Clock) (host : Host)
    (kept : Kept around plan account motive) {pass : Pass World} (holds : motive pass) :
    motive (visitHost around plan clock account host pass).2 := by
  have counted : motive (pass.count fun summary =>
      { summary with hostsScanned := summary.hostsScanned + 1 }) := by
    refine kept.counts ?_ holds
    exact fun _ => rfl
  unfold visitHost
  dsimp only
  split
  next => exact counted
  next =>
    split
    next =>
      dsimp only
      refine kept.counts ?_ counted
      exact fun _ => rfl
    next => exact counted
    next basis filter made =>
      have read := kept.reads (Reading.candidates account filter _) counted
      split
      next failure world failed =>
        rw [failed] at read
        exact read
      next found world answered =>
        rw [answered] at read
        exact resolveCandidates_keeps kept made (congrArg Prod.fst answered) read

theorem visitPage_keeps (clock : Lifecycle.Clock) (hosts : List Host)
    (kept : Kept around plan account motive) {pass : Pass World} (holds : motive pass) :
    motive (visitPage around plan clock account hosts pass).2 := by
  induction hosts generalizing pass with
  | nil => exact holds
  | cons host rest inductionHypothesis =>
      have visited := visitHost_keeps clock host kept holds
      unfold visitPage
      split
      next after completed =>
        rw [completed] at visited
        exact inductionHypothesis visited
      next => exact visited

/-- A fetch makes one page query. -/
theorem fetch_reads (around : Surroundings World) (scan : Scan) (world : World) :
    Reading around world (scan.fetch around.store world).2 := by
  have reading := @Reading.page World around scan.account scan.fetched scan.chunkSize world
  unfold Scan.fetch
  split
  next answered =>
    rw [answered] at reading
    exact reading
  next answered =>
    rw [answered] at reading
    exact reading

theorem visitPages_keeps (kept : Kept around plan account motive) {budget : Nat} {scan : Scan}
    {pass : Pass World} (holds : motive pass) :
    motive (visitPages around plan clock account budget scan pass).2 := by
  induction budget generalizing scan pass with
  | zero => exact holds
  | succ budget inductionHypothesis =>
      have read := kept.reads (fetch_reads around scan pass.world) holds
      unfold visitPages
      split
      next failure world failed =>
        rw [failed] at read
        exact read
      next fetched world answered =>
        rw [answered] at read
        have visited := visitPage_keeps clock fetched.buffer kept read
        split
        next after completed =>
          rw [completed] at visited
          split
          · exact visited
          · exact inductionHypothesis visited
        next => exact visited

theorem accountClock_reads (around : Surroundings World) (plan : Plan) (account : String)
    (world : World) : Reading around world (accountClock around plan account world).2 := by
  have reading := @Reading.policy World around account world
  unfold accountClock
  split
  next answered =>
    rw [answered] at reading
    exact reading
  next answered =>
    rw [answered] at reading
    exact reading
  next answered =>
    rw [answered] at reading
    split
    · exact reading
    · exact reading

/-- What everything a pass does keeps holds after a pass if it holds before it. -/
theorem passAccount_keeps (kept : Kept around plan account motive) {world : World}
    (initially : motive (Pass.start plan world)) :
    motive (passAccount around plan account world).2 := by
  have read := kept.reads (accountClock_reads around plan account world) initially
  unfold passAccount
  split
  next failure next failed =>
    rw [failed] at read
    exact read
  next clock next answered =>
    rw [answered] at read
    exact visitPages_keeps kept read

end Passes

/-- A run before it flushes. -/
def performed (around : Surroundings World) (plan : Plan) (world : World) :
    Ending × Progress World :=
  match scanAccounts around.store world with
  | (.error failure, world) => (.failed failure, Progress.start plan world)
  | (.ok accounts, world) => visitAccounts around plan accounts (Progress.start plan world)

section Flush

variable {around : Surroundings World} {plan : Plan} {world : World} {summary : Summary}
  {failure : Failure}

/-- Whatever came before it, a flush is all that is left to do. -/
theorem finish_world (around : Surroundings World) (outcome : Except Failure Summary)
    (world : World) : (finish around outcome world).2 = (around.emitter.flush world).2 := by
  cases outcome with
  | error failure => rfl
  | ok summary =>
      dsimp only [finish]
      split
      next flushed => rw [flushed]
      next flushed => rw [flushed]

theorem finish_ok {outcome : Except Failure Summary}
    (returned : (finish around outcome world).1 = .ok summary) : outcome = .ok summary := by
  cases outcome with
  | error failure => cases returned
  | ok counted =>
      dsimp only [finish] at returned
      split at returned
      · cases returned
      · exact returned

theorem finish_error {outcome : Except Failure Summary}
    (returned : (finish around outcome world).1 = .error failure) :
    outcome = .error failure ∨ (around.emitter.flush world).1 = .error failure := by
  cases outcome with
  | error first => exact Or.inl returned
  | ok counted =>
      dsimp only [finish] at returned
      split at returned
      next flushed =>
        rw [flushed]
        cases returned
        exact Or.inr rfl
      next => cases returned

theorem outcome_ok {ending : Ending} {counted : Summary}
    (outcome : ending.outcome counted = .ok summary) :
    summary = counted ∧ ∀ failure, ending ≠ .failed failure := by
  cases ending with
  | failed failure => cases outcome
  | completed =>
      cases outcome
      exact ⟨rfl, by rintro failure ⟨⟩⟩
  | interrupted =>
      cases outcome
      exact ⟨rfl, by rintro failure ⟨⟩⟩

theorem outcome_error {ending : Ending} {counted : Summary}
    (outcome : ending.outcome counted = .error failure) : ending = .failed failure := by
  cases ending with
  | failed first =>
      cases outcome
      rfl
  | completed => cases outcome
  | interrupted => cases outcome

/-- A run is what it performs, then a flush, unless the accounts could not be listed. -/
theorem run_eq (around : Surroundings World) (plan : Plan) (world : World) :
    (∃ failure, (performed around plan world).1 = .failed failure ∧
      run around plan world = (.error failure, (performed around plan world).2.world)) ∨
    run around plan world = finish around
      ((performed around plan world).1.outcome (performed around plan world).2.summary)
      (performed around plan world).2.world := by
  unfold run performed
  cases scanAccounts around.store world with
  | mk listed next =>
    cases listed with
    | error failure => exact Or.inl ⟨failure, rfl, rfl⟩
    | ok accounts => exact Or.inr rfl

/-- A run that returns counts has not failed, and returns the counts of what it performed. -/
theorem performed_of_run_ok (returned : (run around plan world).1 = .ok summary) :
    summary = (performed around plan world).2.summary ∧
      ∀ failure, (performed around plan world).1 ≠ .failed failure := by
  rcases run_eq around plan world with ⟨failure, -, unlisted⟩ | finished
  · rw [unlisted] at returned
    cases returned
  · rw [finished] at returned
    exact outcome_ok (finish_ok returned)

/-- A run fails because something it performs does, or because the flush does. -/
theorem performed_of_run_error (returned : (run around plan world).1 = .error failure) :
    (performed around plan world).1 = .failed failure ∨
      ∃ last, (around.emitter.flush last).1 = .error failure := by
  rcases run_eq around plan world with ⟨first, failed, unlisted⟩ | finished
  · rw [unlisted] at returned
    cases returned
    exact Or.inl failed
  · rw [finished] at returned
    exact (finish_error returned).imp outcome_error fun flushed => ⟨_, flushed⟩

/-- A run ends where what it performs does, or with the flush after it. -/
theorem run_world (around : Surroundings World) (plan : Plan) (world : World) :
    (run around plan world).2 = (performed around plan world).2.world ∨
      (run around plan world).2 =
        (around.emitter.flush (performed around plan world).2.world).2 := by
  rcases run_eq around plan world with ⟨failure, -, unlisted⟩ | finished
  · exact Or.inl (congrArg Prod.snd unlisted)
  · rw [finished]
    exact Or.inr (finish_world around _ _)

end Flush

/-- A property of runs that passes, polls and a stop keep. -/
structure RunKept (around : Surroundings World) (plan : Plan) (motive : Progress World → Prop) :
    Prop where
  reads : ∀ {progress world}, Reading around progress.world world → motive progress →
    motive { progress with world := world }
  stops : ∀ {progress}, motive progress →
    motive { progress with summary := { progress.summary with interrupted := true } }
  absorbs : ∀ {progress account}, motive progress →
    motive (progress.absorb (passAccount around plan account progress.world).2)

section Runs

variable {around : Surroundings World} {plan : Plan} {motive : Progress World → Prop}

theorem visitAccounts_keeps (kept : RunKept around plan motive) {accounts : List String}
    {progress : Progress World} (holds : motive progress) :
    motive (visitAccounts around plan accounts progress).2 := by
  induction accounts generalizing progress with
  | nil => exact holds
  | cons account rest inductionHypothesis =>
      have polled := kept.reads (Reading.stop progress.world) holds
      unfold visitAccounts
      split
      next world stopped =>
        rw [stopped] at polled
        exact kept.stops polled
      next world goesOn =>
        rw [goesOn] at polled
        have absorbed := @kept.absorbs _ account polled
        split
        next pass completed =>
          rw [completed] at absorbed
          exact inductionHypothesis absorbed
        next ended =>
          rw [ended] at absorbed
          exact absorbed

theorem scanAccounts_reads (around : Surroundings World) (world : World) :
    Reading around world (scanAccounts around.store world).2 := by
  have reading := @Reading.accounts World around world
  unfold scanAccounts
  split
  next answered =>
    rw [answered] at reading
    exact reading
  next answered =>
    rw [answered] at reading
    exact reading

theorem performed_keeps (kept : RunKept around plan motive) {world : World}
    (initially : motive (Progress.start plan world)) :
    motive (performed around plan world).2 := by
  have read := kept.reads (scanAccounts_reads around world) initially
  unfold performed
  split
  next failure next failed =>
    rw [failed] at read
    exact read
  next accounts next listed =>
    rw [listed] at read
    exact visitAccounts_keeps kept read

end Runs

/-! ### Counts -/

/-- Counts that are those of the decisions made and carried out. -/
structure Tallied (summary : Summary) (decisions removals : List Decision) : Prop where
  found : summary.duplicatesFound = decisions.length
  deleted : summary.hostsDeleted = removals.length
  events : summary.eventsEmitted + summary.eventsFailed = removals.length

namespace Tallied

variable {decisions removals : List Decision}

/-- Only the four counts matter. -/
theorem congr {left right : Summary} (tallied : Tallied left decisions removals)
    (same : right.tally = left.tally) : Tallied right decisions removals := by
  simp only [Summary.tally, Prod.mk.injEq] at same
  obtain ⟨found, deleted, emitted, failed⟩ := same
  exact ⟨found.trans tallied.found, deleted.trans tallied.deleted, by
    rw [emitted, failed]
    exact tallied.events⟩

theorem absorb {run account : Summary} {moreDecisions moreRemovals : List Decision}
    (before : Tallied run decisions removals)
    (pass : Tallied account moreDecisions moreRemovals) :
    Tallied (run.absorb account) (decisions ++ moreDecisions) (removals ++ moreRemovals) := by
  obtain ⟨found, deleted, events⟩ := before
  obtain ⟨moreFound, moreDeleted, moreEvents⟩ := pass
  refine ⟨?_, ?_, ?_⟩ <;> simp only [Summary.absorb, List.length_append] <;> omega

end Tallied

/-- A removal counts what it did: a decision, and an event for each host it removed. -/
theorem removeDuplicate_tallied {around : Surroundings World} {plan : Plan} {decision : Decision}
    {pass : Pass World} (tallied : Tallied pass.summary pass.decisions pass.removals) :
    let after := (removeDuplicate around plan decision pass).2
    Tallied after.summary after.decisions after.removals := by
  obtain ⟨found, deleted, events⟩ := tallied
  unfold removeDuplicate
  dsimp only
  split
  · constructor <;> simp [Pass.decide, *]
  · split
    · constructor <;> simp [Pass.decide, Pass.inWorld, *]
    · constructor <;> simp [Pass.decide, Pass.inWorld, *]
    · unfold publishRemoval
      dsimp only
      split
      · constructor <;> simp [Pass.decide, Pass.inWorld, Pass.carryOut, Pass.count, *]
        omega
      · split <;> constructor <;>
          simp [Pass.decide, Pass.inWorld, Pass.carryOut, Pass.count, *] <;> omega

/-- A pass counts every removed host once, with one event for it, delivered or not. -/
theorem passAccount_tallied (around : Surroundings World) (plan : Plan) (account : String)
    (world : World) :
    let pass := (passAccount around plan account world).2
    Tallied pass.summary pass.decisions pass.removals := by
  have kept : Kept around plan account fun pass =>
      Tallied pass.summary pass.decisions pass.removals :=
    { reads := fun _ tallied => tallied
      counts := fun untallied tallied => tallied.congr (untallied _)
      removes := fun _ tallied => removeDuplicate_tallied tallied }
  exact passAccount_keeps kept ⟨rfl, rfl, rfl⟩

/-- Every removed host is counted once and has one event, delivered or not. -/
theorem performed_tallied (around : Surroundings World) (plan : Plan) (world : World) :
    let progress := (performed around plan world).2
    Tallied progress.summary progress.decisions progress.removals := by
  refine performed_keeps (motive := fun progress =>
    Tallied progress.summary progress.decisions progress.removals) ?_ ⟨rfl, rfl, rfl⟩
  exact
    { reads := fun _ tallied => tallied
      stops := fun tallied => tallied.congr rfl
      absorbs := fun tallied => tallied.absorb (passAccount_tallied around plan _ _) }

/-! ### Decisions -/

/-- Whatever comes of a removal, it was decided. -/
@[simp]
theorem removeDuplicate_decisions (around : Surroundings World) (plan : Plan)
    (decision : Decision) (pass : Pass World) :
    (removeDuplicate around plan decision pass).2.decisions = pass.decisions ++ [decision] := by
  unfold removeDuplicate publishRemoval
  dsimp only
  repeat' split
  all_goals rfl

/-- Every decision of a run rests on an answer of the store. -/
theorem performed_sourced (around : Surroundings World) (plan : Plan) (world : World) :
    ∀ decision ∈ (performed around plan world).2.decisions,
      ∃ account, Sourced around account decision := by
  have pass : ∀ account, Kept around plan account fun pass =>
      ∀ decision ∈ pass.decisions, Sourced around account decision := fun account =>
    { reads := fun _ sourced => sourced
      counts := fun _ sourced => sourced
      removes := fun new sourced decision among => by
        rw [removeDuplicate_decisions, List.mem_append, List.mem_singleton] at among
        rcases among with old | rfl
        · exact sourced decision old
        · exact new }
  refine performed_keeps (motive := fun progress => ∀ decision ∈ progress.decisions,
    ∃ account, Sourced around account decision) ?_ (fun _ among => absurd among List.not_mem_nil)
  exact
    { reads := fun _ sourced => sourced
      stops := fun sourced => sourced
      absorbs := fun sourced decision among => by
        rcases List.mem_append.1 among with old | new
        · exact sourced decision old
        · exact ⟨_, passAccount_keeps (pass _) (fun _ among => absurd among List.not_mem_nil)
            decision new⟩ }

/-- Only what was decided is carried out. -/
theorem performed_removals_subset (around : Surroundings World) (plan : Plan) (world : World) :
    (performed around plan world).2.removals ⊆ (performed around plan world).2.decisions := by
  have pass : ∀ account, Kept around plan account fun pass => pass.removals ⊆ pass.decisions :=
    fun account =>
    { reads := fun _ within => within
      counts := fun _ within => within
      removes := fun {pass decision} _ within => by
        have removals : (removeDuplicate around plan decision pass).2.removals ⊆
            pass.removals ++ [decision] := by
          unfold removeDuplicate publishRemoval
          dsimp only
          repeat' split
          all_goals simp [Pass.decide, Pass.inWorld, Pass.carryOut, Pass.count]
        intro removal among
        rw [removeDuplicate_decisions]
        rcases List.mem_append.1 (removals among) with old | new
        · exact List.mem_append_left _ (within old)
        · exact List.mem_append_right _ new }
  refine performed_keeps (motive := fun progress => progress.removals ⊆ progress.decisions) ?_
    (List.nil_subset _)
  exact
    { reads := fun _ within => within
      stops := fun within => within
      absorbs := fun within removal among => by
        rcases List.mem_append.1 among with old | new
        · exact List.mem_append_left _ (within old)
        · exact List.mem_append_right _ (passAccount_keeps (pass _) (List.nil_subset _) new) }

/-- A run that decides nothing only reads. -/
theorem performed_quiet {around : Surroundings World} {plan : Plan} {world : World}
    (undecided : (performed around plan world).2.decisions = []) :
    Relation.ReflTransGen (Reading around) world (performed around plan world).2.world := by
  have pass : ∀ account, Kept around plan account fun pass => pass.decisions = [] →
      Relation.ReflTransGen (Reading around) world pass.world := fun account =>
    { reads := fun reading quiet undecided => (quiet undecided).tail reading
      counts := fun _ quiet => quiet
      removes := fun _ _ undecided => by
        rw [removeDuplicate_decisions] at undecided
        exact absurd undecided (List.append_ne_nil_of_right_ne_nil _ (List.cons_ne_nil _ _)) }
  refine performed_keeps (motive := fun progress => progress.decisions = [] →
    Relation.ReflTransGen (Reading around) world progress.world) ?_ (fun _ => .refl) undecided
  exact
    { reads := fun reading quiet undecided => (quiet undecided).tail reading
      stops := fun quiet => quiet
      absorbs := fun quiet undecided => by
        obtain ⟨before, during⟩ := List.append_eq_nil_iff.1 undecided
        exact passAccount_keeps (pass _) (fun _ => quiet before) during }

end HostPruning.Pruning
