import HostPruning.Proofs.Custody
import HostPruning.Proofs.Tracing

/-!
# Deletions and their events

Other clients may change the inventory between any two calls of a pass, so nothing is known about
what a store answers. Still deletions and events go in pairs. `Orderly` lists the ways a trace of a
pass grows: by a call that neither removes nor tells, by a deletion that nothing came of, and by a
deletion with its event right behind it; each deletion is due by the last answered candidates
(`Due`). `passAccount_orderly` shows that every pass is orderly, and what follows from it is proved
by induction on the trace (`Orderly.paired`, `Orderly.once`).
-/

namespace HostPruning

namespace Exchange

/-- Whether a call asks for candidates. -/
def asksCandidates : Exchange → Bool
  | candidates _ _ _ => true
  | _ => false

/-- The candidates that a call has found. -/
def found : Exchange → List Host
  | candidates _ _ (.ok hosts) => hosts
  | _ => []

/-- Whether a removal was confirmed. -/
def confirms : Exchange → Bool
  | delete _ (.ok .deleted) => true
  | _ => false

/-- Whether an event was taken. -/
def takes : Exchange → Bool
  | emit _ _ (.ok _) => true
  | _ => false

/-- Whether an event was refused. -/
def refuses : Exchange → Bool
  | emit _ _ (.error _) => true
  | _ => false

end Exchange

namespace Pruning

/-! ### Traces -/

/-- The hosts that were to be removed, first one first. -/
def targets (trace : List Exchange) : List HostId := trace.filterMap Exchange.target?

/-- The events handed over before the next removal, with their keys. -/
def handedNext (trace : List Exchange) : List (HostId × DeleteEvent) :=
  (trace.takeWhile fun exchange => exchange.target?.isNone).filterMap Exchange.handed?

@[simp]
theorem targets_append (first second : List Exchange) :
    targets (first ++ second) = targets first ++ targets second :=
  List.filterMap_append

theorem targets_of_quiet {exchange : Exchange} (quiet : exchange.quiet = true) :
    targets [exchange] = [] := by
  simp [targets, (Exchange.quiet_iff.1 quiet).1]

theorem handedNext_of_quiet {exchange : Exchange} (quiet : exchange.quiet = true) :
    handedNext [exchange] = [] := by
  simp [handedNext, (Exchange.quiet_iff.1 quiet).1, (Exchange.quiet_iff.1 quiet).2]

/-- Whatever starts with a removal hands over nothing before it. -/
theorem handedNext_delete (id : HostId) (answer : Except Failure Removal) (rest : List Exchange) :
    handedNext (.delete id answer :: rest) = [] := by
  simp [handedNext, Exchange.target?]

/-- More calls that hand over nothing before the next removal change nothing. -/
theorem handedNext_append {more : List Exchange} (silent : handedNext more = [])
    (trace : List Exchange) : handedNext (trace ++ more) = handedNext trace := by
  induction trace with
  | nil => exact silent
  | cons exchange rest inductionHypothesis =>
      unfold handedNext at inductionHypothesis ⊢
      rw [List.cons_append, List.takeWhile_cons, List.takeWhile_cons]
      split
      · simp only [List.filterMap_cons, inductionHypothesis]
      · rfl

/-- The hosts considered do not depend on the order of those left out. -/
theorem eligible_congr {left right : List HostId} (same : ∀ id, id ∈ left ↔ id ∈ right)
    (account : String) (found : List Host) :
    eligible account left found = eligible account right found := by
  unfold eligible
  refine List.filter_congr fun host _ => ?_
  rw [Bool.eq_iff_iff]
  simp [same]

/-- Whoever stands behind a survivor was in the answer, belongs to the account and is not left out. -/
theorem mem_ranked {clock : Lifecycle.Clock} {options : Options} {account : String}
    {left : List HostId} {found ranked : List Host} {survivor duplicate : Host}
    (sorted : inSurvivorOrder (notCulled clock options (eligible account left found)) =
      survivor :: ranked) (behind : duplicate ∈ ranked) :
    duplicate ∈ found ∧ duplicate.account = account ∧ duplicate.id ∉ left := by
  have ordered : duplicate ∈ inSurvivorOrder (notCulled clock options (eligible account left found)) := by
    rw [sorted]
    exact List.mem_cons_of_mem _ behind
  exact mem_eligible.1 (mem_notCulled.1 (mem_inSurvivorOrder.1 ordered)).1

/-! ### Orderly traces -/

/-- A removal that is due: by the last answered candidates, among those of the account that were not
to be removed before and that are not left alone, the duplicate stands behind the survivor. -/
def Due (plan : Plan) (clock : Lifecycle.Clock) (account : String) (trace : List Exchange)
    (duplicate survivor : Host) : Prop :=
  ∃ earlier filter found between ranked,
    trace = earlier ++ .candidates account filter (.ok found) :: between ∧
      (∀ exchange ∈ between, exchange.asksCandidates = false) ∧
      inSurvivorOrder (notCulled clock plan.options (eligible account (targets earlier) found)) =
        survivor :: ranked ∧
      duplicate ∈ ranked

/-- No answer to a question for candidates of the account holds two hosts of one identifier. -/
def DistinctAnswers (account : String) (trace : List Exchange) : Prop :=
  ∀ filter found, .candidates account filter (.ok found) ∈ trace → DistinctIds found

theorem DistinctAnswers.before {account : String} {trace more : List Exchange}
    (distinct : DistinctAnswers account (trace ++ more)) : DistinctAnswers account trace :=
  fun filter found among => distinct filter found (List.mem_append_left more among)

section Orderly

variable {plan : Plan} {clock : Lifecycle.Clock} {account : String} {trace : List Exchange}
  {duplicate survivor : Host}

/-- A due removal is of a host of the account that was among the candidates. -/
theorem Due.belongs (due : Due plan clock account trace duplicate survivor) :
    duplicate.account = account ∧
      ∃ filter found, .candidates account filter (.ok found) ∈ trace ∧ duplicate ∈ found := by
  obtain ⟨earlier, filter, found, between, ranked, rfl, -, sorted, behind⟩ := due
  obtain ⟨among, here, -⟩ := mem_ranked sorted behind
  exact ⟨here, filter, found, by simp, among⟩

/-- A removal stays due as long as no other candidates are answered. -/
theorem Due.append (due : Due plan clock account trace duplicate survivor) {more : List Exchange}
    (others : ∀ exchange ∈ more, exchange.asksCandidates = false) :
    Due plan clock account (trace ++ more) duplicate survivor := by
  obtain ⟨earlier, filter, found, between, ranked, rfl, last, sorted, behind⟩ := due
  refine ⟨earlier, filter, found, between ++ more, ranked, by simp, ?_, sorted, behind⟩
  intro exchange among
  rcases List.mem_append.1 among with before | new
  · exact last exchange before
  · exact others exchange new

/-- How the trace of a pass grows. -/
inductive Orderly (plan : Plan) (clock : Lifecycle.Clock) (account : String) : List Exchange → Prop where
  | begun : Orderly plan clock account []
  | quiet {trace : List Exchange} {exchange : Exchange} (orderly : Orderly plan clock account trace)
      (quiet : exchange.quiet = true) : Orderly plan clock account (trace ++ [exchange])
  | kept {trace : List Exchange} {duplicate survivor : Host} {answer : Except Failure Removal}
      (orderly : Orderly plan clock account trace)
      (due : Due plan clock account trace duplicate survivor)
      (fresh : DistinctAnswers account trace → duplicate.id ∉ targets trace)
      (otherwise : answer ≠ .ok .deleted) :
      Orderly plan clock account (trace ++ [.delete duplicate.id answer])
  | published {trace : List Exchange} {duplicate survivor : Host} {moment : Moment}
      {answer : Except Failure Unit} (orderly : Orderly plan clock account trace)
      (due : Due plan clock account trace duplicate survivor)
      (fresh : DistinctAnswers account trace → duplicate.id ∉ targets trace) :
      Orderly plan clock account (trace ++ [.delete duplicate.id (.ok .deleted),
        .emit duplicate.id (DeleteEvent.ofDuplicate duplicate survivor.id moment) answer])

/-- The events that are to follow a removal: that of a confirmed one. -/
def eventsDue (duplicate survivor : Host) (moment : Moment) :
    Except Failure Removal → List (HostId × DeleteEvent)
  | .ok .deleted => [(duplicate.id, DeleteEvent.ofDuplicate duplicate survivor.id moment)]
  | _ => []

theorem eventsDue_of_unconfirmed {answer : Except Failure Removal} (otherwise : answer ≠ .ok .deleted)
    (duplicate survivor : Host) (moment : Moment) : eventsDue duplicate survivor moment answer = [] := by
  unfold eventsDue
  split
  · exact absurd rfl otherwise
  · rfl

/-- A removal with what is due behind it. -/
structure PairedRemoval (plan : Plan) (clock : Lifecycle.Clock) (account : String)
    (before : List Exchange) (id : HostId) (answer : Except Failure Removal) (after : List Exchange) :
    Prop where
  paired : ∃ duplicate survivor moment, Due plan clock account before duplicate survivor ∧
    duplicate.id = id ∧ handedNext after = eventsDue duplicate survivor moment answer

/-- Calls that hand over nothing before the next removal keep the pairs before them. -/
theorem PairedRemoval.append {before after more : List Exchange} {id : HostId}
    {answer : Except Failure Removal} (removal : PairedRemoval plan clock account before id answer after)
    (silent : handedNext more = []) :
    PairedRemoval plan clock account before id answer (after ++ more) := by
  obtain ⟨duplicate, survivor, moment, due, same, handed⟩ := removal
  exact ⟨duplicate, survivor, moment, due, same, (handedNext_append silent after).trans handed⟩

/-- In an orderly trace every confirmed removal has its event before the next one, and no other
removal has one. -/
theorem Orderly.paired (orderly : Orderly plan clock account trace) {before after : List Exchange}
    {id : HostId} {answer : Except Failure Removal} (split : trace = before ++ .delete id answer :: after) :
    PairedRemoval plan clock account before id answer after := by
  induction orderly generalizing after with
  | begun => simp at split
  | @quiet trace exchange _ quiet inductionHypothesis =>
      rcases split_append split with ⟨between, here⟩ | ⟨between, -, last⟩
      · rw [here, List.append_assoc, List.cons_append] at split
        obtain ⟨-, rfl⟩ := List.cons.inj (List.append_cancel_left split)
        exact (inductionHypothesis here).append (handedNext_of_quiet quiet)
      · obtain ⟨rfl, rfl⟩ : exchange = .delete id answer ∧ after = [] := by
          cases between with
          | nil => simpa using last
          | cons first rest => simp at last
        simp [Exchange.quiet, Exchange.target?] at quiet
  | @kept trace duplicate survivor answer' _ due _ otherwise inductionHypothesis =>
      rcases split_append split with ⟨between, here⟩ | ⟨between, rfl, last⟩
      · rw [here, List.append_assoc, List.cons_append] at split
        obtain ⟨-, rfl⟩ := List.cons.inj (List.append_cancel_left split)
        exact (inductionHypothesis here).append (handedNext_delete _ _ _)
      · cases between with
        | cons first rest => simp at last
        | nil =>
            obtain ⟨⟨rfl, rfl⟩, rfl⟩ : (duplicate.id = id ∧ answer' = answer) ∧ after = [] := by
              simpa using last
            rw [List.append_nil]
            exact ⟨duplicate, survivor, .ofUnixSeconds 0, due, rfl,
              (eventsDue_of_unconfirmed otherwise duplicate survivor _).symm⟩
  | @published trace duplicate survivor moment heard _ due _ inductionHypothesis =>
      rcases split_append split with ⟨between, here⟩ | ⟨between, rfl, last⟩
      · rw [here, List.append_assoc, List.cons_append] at split
        obtain ⟨-, rfl⟩ := List.cons.inj (List.append_cancel_left split)
        exact (inductionHypothesis here).append (handedNext_delete _ _ _)
      · cases between with
        | cons first rest =>
            cases rest with
            | nil => simp at last
            | cons second others => simp at last
        | nil =>
            obtain ⟨⟨rfl, rfl⟩, rfl⟩ : (duplicate.id = id ∧ .ok .deleted = answer) ∧
                [.emit duplicate.id (DeleteEvent.ofDuplicate duplicate survivor.id moment) heard] =
                  after := by
              simpa using last
            rw [List.append_nil]
            exact ⟨duplicate, survivor, moment, due, rfl, rfl⟩

/-- Nothing is handed over before the first removal. -/
theorem Orderly.first (orderly : Orderly plan clock account trace) : handedNext trace = [] := by
  induction orderly with
  | begun => rfl
  | quiet _ quiet inductionHypothesis =>
      rw [handedNext_append (handedNext_of_quiet quiet), inductionHypothesis]
  | kept _ _ _ _ inductionHypothesis =>
      rw [handedNext_append (handedNext_delete _ _ _), inductionHypothesis]
  | published _ _ _ inductionHypothesis =>
      rw [handedNext_append (handedNext_delete _ _ _), inductionHypothesis]

/-- Where answers hold no identifier twice, no host is to be removed twice. -/
theorem Orderly.once (orderly : Orderly plan clock account trace)
    (distinct : DistinctAnswers account trace) : (targets trace).Nodup := by
  induction orderly with
  | begun => exact List.nodup_nil
  | quiet _ quiet inductionHypothesis =>
      rw [targets_append, targets_of_quiet quiet, List.append_nil]
      exact inductionHypothesis distinct.before
  | @kept trace duplicate survivor answer _ due fresh _ inductionHypothesis =>
      have apart : duplicate.id ∉ targets trace := fresh distinct.before
      rw [targets_append, List.nodup_append_comm]
      exact List.nodup_cons.2 ⟨apart, inductionHypothesis distinct.before⟩
  | @published trace duplicate survivor moment answer _ due fresh inductionHypothesis =>
      have apart : duplicate.id ∉ targets trace := fresh distinct.before
      rw [targets_append, List.nodup_append_comm]
      exact List.nodup_cons.2 ⟨apart, inductionHypothesis distinct.before⟩

end Orderly

/-! ### Passes -/

section Passes

variable {World : Type} {plan : Plan} {clock : Lifecycle.Clock} {account : String}

/-- A pass with an orderly trace, which leaves out just the hosts that were to be removed. -/
structure Ordered (plan : Plan) (clock : Lifecycle.Clock) (account : String)
    (pass : Pass (Traced World)) : Prop where
  orderly : Orderly plan clock account pass.world.trace
  masked : pass.duplicates = (targets pass.world.trace).reverse

/-- A quiet call keeps a pass ordered. -/
theorem Ordered.call {pass : Pass (Traced World)} (ordered : Ordered plan clock account pass)
    {next : Traced World} {exchange : Exchange} (quiet : exchange.quiet = true)
    (noted : next.trace = pass.world.trace ++ [exchange]) :
    Ordered plan clock account (pass.inWorld next) := by
  refine ⟨?_, ?_⟩
  · dsimp only [Pass.inWorld]
    rw [noted]
    exact ordered.orderly.quiet quiet
  · dsimp only [Pass.inWorld]
    rw [noted, targets_append, targets_of_quiet quiet, List.append_nil]
    exact ordered.masked

/-- A removal of a real pass adds one call, or two, none of which asks for candidates, and the host
is the last one that was to be removed. -/
theorem Attempted.ordered {decision : Decision} {pass : Pass (Traced World)}
    {result : Ending × Pass (Traced World)} (attempted : Attempted plan decision pass result)
    (real : plan.options.dryRun = false) (ordered : Ordered plan clock account pass)
    (due : Due plan clock account pass.world.trace decision.duplicate decision.survivor)
    (fresh : DistinctAnswers account pass.world.trace →
      decision.duplicate.id ∉ targets pass.world.trace) :
    Ordered plan clock account result.2 ∧
      ∃ calls, result.2.world.trace = pass.world.trace ++ calls ∧
        targets calls = [decision.duplicate.id] ∧
        ∀ exchange ∈ calls, exchange.asksCandidates = false := by
  cases attempted with
  | rehearsed dry => simp [dry] at real
  | kept _ answer world otherwise =>
      refine ⟨⟨ordered.orderly.kept due fresh otherwise, ?_⟩, _, rfl, rfl, by
        simp [Exchange.asksCandidates]⟩
      simp [Pass.inWorld, Pass.decide, ordered.masked, targets, Exchange.target?]
  | published _ moment answer world =>
      refine ⟨⟨ordered.orderly.published due fresh, ?_⟩, _, rfl, rfl, by
        simp [Exchange.asksCandidates]⟩
      simp [Pass.count, Pass.carryOut, Pass.inWorld, Pass.decide, ordered.masked, targets,
        Exchange.target?]

/-- The duplicates behind a survivor are due one after the other. -/
theorem removeDuplicates_ordered (around : Surroundings World) (real : plan.options.dryRun = false)
    (scanned survivor : Host) (duplicates : List Host) {pass : Pass (Traced World)}
    (ordered : Ordered plan clock account pass)
    (due : ∀ duplicate ∈ duplicates, Due plan clock account pass.world.trace duplicate survivor)
    (fresh : DistinctAnswers account pass.world.trace → DistinctIds duplicates ∧
      ∀ duplicate ∈ duplicates, duplicate.id ∉ targets pass.world.trace) :
    Ordered plan clock account
      (removeDuplicates around.traced plan scanned survivor duplicates pass).2 := by
  induction duplicates generalizing pass with
  | nil => exact ordered
  | cons duplicate rest inductionHypothesis =>
      unfold removeDuplicates
      rw [stopRequested_traced]
      cases around.stopRequested pass.world.world with
      | mk stopped world =>
          have asked : Ordered plan clock account (pass.inWorld (pass.world.note (.poll stopped) world)) :=
            ordered.call rfl rfl
          have unasked : ∀ exchange ∈ [Exchange.poll stopped], exchange.asksCandidates = false := by
            simp [Exchange.asksCandidates]
          cases stopped with
          | true => exact ⟨asked.orderly, asked.masked⟩
          | false =>
              have polled : targets (pass.world.trace ++ [.poll false]) = targets pass.world.trace := by
                simp [targets, Exchange.target?]
              have attempted := removeDuplicate_attempted around plan ⟨scanned, duplicate, survivor⟩
                (pass.inWorld (pass.world.note (.poll false) world))
              obtain ⟨removed, calls, noted, targeted, others⟩ := attempted.ordered real asked
                ((due duplicate List.mem_cons_self).append unasked) fun distinct => by
                  dsimp only [Pass.inWorld, Traced.note]
                  rw [polled]
                  exact (fresh distinct.before).2 duplicate List.mem_cons_self
              dsimp only
              split
              next after completed =>
                rw [completed] at removed noted
                dsimp only [Pass.inWorld, Traced.note] at noted
                refine inductionHypothesis removed (fun other later => ?_) fun distinct => ?_
                · rw [noted]
                  exact ((due other (List.mem_cons_of_mem _ later)).append unasked).append others
                · rw [noted] at distinct ⊢
                  obtain ⟨apart, unnamed⟩ := fresh distinct.before.before
                  obtain ⟨duplicateApart, restApart⟩ := List.pairwise_cons.1 apart
                  refine ⟨restApart, fun other later => ?_⟩
                  rw [targets_append, polled, targeted, List.mem_append, List.mem_singleton, not_or]
                  exact ⟨unnamed other (List.mem_cons_of_mem _ later),
                    (duplicateApart other later).symm⟩
              next => exact removed

/-- The candidates of a scanned host make the removals behind their first one due. -/
theorem resolveCandidates_ordered (around : Surroundings World) (real : plan.options.dryRun = false)
    (scanned : Host) {earlier : List Exchange} {filter : FactFilter} {found : List Host}
    {pass : Pass (Traced World)}
    (answered : pass.world.trace = earlier ++ [.candidates account filter (.ok found)])
    (ordered : Ordered plan clock account pass) :
    Ordered plan clock account
      (resolveCandidates around.traced plan clock account scanned found pass).2 := by
  have silent : targets pass.world.trace = targets earlier := by
    rw [answered, targets_append, targets_of_quiet rfl, List.append_nil]
  have considered : eligible account pass.duplicates found =
      eligible account (targets earlier) found := by
    refine eligible_congr (fun id => ?_) account found
    rw [ordered.masked, silent, List.mem_reverse]
  unfold resolveCandidates
  dsimp only
  rw [considered]
  split
  next => exact ⟨ordered.orderly, ordered.masked⟩
  next survivor ranked sorted =>
    refine removeDuplicates_ordered around real scanned survivor ranked
      ⟨ordered.orderly, ordered.masked⟩ (fun duplicate behind => ?_) fun distinct => ?_
    · exact ⟨earlier, filter, found, [], ranked, answered, by simp, sorted, behind⟩
    · have foundApart : DistinctIds found := distinct filter found (by
        dsimp only [Pass.count]
        rw [answered]
        simp)
      have within : (notCulled clock plan.options (eligible account (targets earlier) found)).Sublist
          found := (notCulled_sublist _ _ _).trans List.filter_sublist
      have apart : DistinctIds (survivor :: ranked) := by
        rw [← sorted]
        exact (foundApart.sublist within).perm (inSurvivorOrder_perm _).symm
      refine ⟨(List.pairwise_cons.1 apart).2, fun duplicate behind => ?_⟩
      dsimp only [Pass.count]
      rw [silent]
      exact (mem_ranked sorted behind).2.2

/-- Everything a real pass does keeps it ordered. -/
theorem carried_ordered (around : Surroundings World) (real : plan.options.dryRun = false)
    (clock : Lifecycle.Clock) (account : String) :
    Carried around.traced plan clock account fun _ => Ordered plan clock account where
  counts := fun _ ordered => ⟨ordered.orderly, ordered.masked⟩
  pages := by
    intro pass scan ordered
    obtain ⟨answer, noted⟩ := fetch_traced around scan pass.world
    exact ordered.call rfl noted
  candidates := fun filter ordered => ordered.call rfl rfl
  resolves := by
    intro pass scanned world filter found answered ordered
    have noted : pass.world.trace = world.trace ++ [.candidates account filter (.ok found)] := by
      have next := congrArg (fun result => result.2.trace) answered
      have answer := congrArg Prod.fst answered
      dsimp only [Surroundings.traced, Call.traced, Traced.note] at next answer
      rw [← next, answer]
    exact resolveCandidates_ordered around real scanned noted ordered
  exhausted := id

/-- A dry pass only reads. -/
theorem passAccount_dry_quiet (around : Surroundings World) (dry : plan.options.dryRun = true)
    (account : String) (world : World) :
    ∀ exchange ∈ (passAccount around.traced plan account ⟨world, []⟩).2.world.trace,
      exchange.quiet = true := by
  have kept : Kept around.traced plan account fun pass =>
      ∀ exchange ∈ pass.world.trace, exchange.quiet = true :=
    { reads := by
        intro pass next reading quiet exchange among
        obtain ⟨new, newQuiet, noted⟩ := reading.traced
        dsimp only [Pass.inWorld] at among
        rw [noted, List.mem_append, List.mem_singleton] at among
        rcases among with before | rfl
        · exact quiet exchange before
        · exact newQuiet
      counts := fun _ quiet => quiet
      removes := by
        intro pass decision _ quiet
        have attempted := removeDuplicate_attempted around plan decision pass
        generalize removeDuplicate around.traced plan decision pass = result at attempted ⊢
        cases attempted with
        | rehearsed _ => exact quiet
        | kept real _ _ _ => simp [dry] at real
        | published real _ _ _ => simp [dry] at real }
  apply passAccount_keeps kept
  simp [Pass.start]

/-- The trace of a pass over an account is orderly under the account's clock, or shows that the clock
could not be found. -/
theorem passAccount_orderly (around : Surroundings World) (real : plan.options.dryRun = false)
    (account : String) (world : World) :
    (∃ clock, (accountClock around plan account world).1 = .ok clock ∧
        Orderly plan clock account
          (passAccount around.traced plan account ⟨world, []⟩).2.world.trace) ∨
      ∃ exchange, exchange.quiet = true ∧
        (passAccount around.traced plan account ⟨world, []⟩).2.world.trace = [exchange] := by
  obtain ⟨answer, noted⟩ := accountClock_noted around plan account ⟨world, []⟩
  have plain := accountClock_traced around plan account ⟨world, []⟩
  cases found : accountClock around.traced plan account ⟨world, []⟩ with
  | mk clocked next =>
      rw [found] at noted plain
      cases clocked with
      | error failure =>
          right
          refine ⟨.policy account answer, rfl, ?_⟩
          unfold passAccount
          rw [found]
          exact noted
      | ok clock =>
          left
          refine ⟨clock, congrArg Prod.fst plain, Ordered.orderly ?_⟩
          apply passAccount_carries (motive := fun _ => Ordered plan clock account)
          · intro clock' next' found'
            rw [found] at found'
            cases found'
            have begun : Ordered plan clock account (Pass.start plan (⟨world, []⟩ : Traced World)) :=
              ⟨.begun, rfl⟩
            exact ⟨carried_ordered around real clock account, begun.call rfl noted⟩
          · intro failure next' found'
            rw [found] at found'
            cases found'

/-! ### Counts -/

/-- Counts that are those of the answers in a trace. -/
structure Accounted (summary : Summary) (trace : List Exchange) : Prop where
  deleted : summary.hostsDeleted = trace.countP Exchange.confirms
  emitted : summary.eventsEmitted = trace.countP Exchange.takes
  failed : summary.eventsFailed = trace.countP Exchange.refuses

/-- A quiet call is not counted. -/
theorem Accounted.call {summary : Summary} {trace : List Exchange} (accounted : Accounted summary trace)
    {exchange : Exchange} (quiet : exchange.quiet = true) : Accounted summary (trace ++ [exchange]) := by
  obtain ⟨deleted, emitted, failed⟩ := accounted
  cases exchange with
  | delete id answer => simp [Exchange.quiet, Exchange.target?] at quiet
  | emit key event answer => simp [Exchange.quiet, Exchange.handed?] at quiet
  | accounts answer => constructor <;> simpa [Exchange.confirms, Exchange.takes, Exchange.refuses]
  | page account after limit answer =>
      constructor <;> simpa [Exchange.confirms, Exchange.takes, Exchange.refuses]
  | candidates account filter answer =>
      constructor <;> simpa [Exchange.confirms, Exchange.takes, Exchange.refuses]
  | policy account answer => constructor <;> simpa [Exchange.confirms, Exchange.takes, Exchange.refuses]
  | flush answer => constructor <;> simpa [Exchange.confirms, Exchange.takes, Exchange.refuses]
  | poll stop => constructor <;> simpa [Exchange.confirms, Exchange.takes, Exchange.refuses]

theorem Attempted.accounted {decision : Decision} {pass : Pass (Traced World)}
    {result : Ending × Pass (Traced World)} (attempted : Attempted plan decision pass result)
    (accounted : Accounted pass.summary pass.world.trace) :
    Accounted result.2.summary result.2.world.trace := by
  obtain ⟨deleted, emitted, failed⟩ := accounted
  cases attempted with
  | rehearsed dry => exact ⟨deleted, emitted, failed⟩
  | kept real answer world otherwise =>
      have unconfirmed : (Exchange.delete decision.duplicate.id answer).confirms = false := by
        unfold Exchange.confirms
        split
        next same =>
          cases same
          exact absurd rfl otherwise
        next => rfl
      constructor <;> simpa [Pass.inWorld, Pass.decide, unconfirmed, Exchange.takes, Exchange.refuses]
  | published real moment answer world =>
      cases answer <;> constructor <;>
        simpa [Pass.inWorld, Pass.decide, Pass.carryOut, Pass.count, Summary.answered,
          List.countP_cons, Exchange.confirms, Exchange.takes, Exchange.refuses]

/-- A pass counts what it is answered. -/
theorem passAccount_accounted (around : Surroundings World) (plan : Plan) (account : String)
    (world : World) :
    let pass := (passAccount around.traced plan account ⟨world, []⟩).2
    Accounted pass.summary pass.world.trace := by
  have kept : Kept around.traced plan account fun pass =>
      Accounted pass.summary pass.world.trace :=
    { reads := by
        intro pass next reading accounted
        obtain ⟨new, quiet, noted⟩ := reading.traced
        dsimp only [Pass.inWorld]
        rw [noted]
        exact accounted.call quiet
      counts := by
        intro pass change untallied accounted
        obtain ⟨deleted, emitted, failed⟩ := accounted
        have same := untallied pass.summary
        simp only [Summary.tally, Prod.mk.injEq] at same
        exact ⟨same.2.1.trans deleted, same.2.2.1.trans emitted, same.2.2.2.trans failed⟩
      removes := fun _ accounted => (removeDuplicate_attempted around plan _ _).accounted accounted }
  apply passAccount_keeps kept
  exact ⟨rfl, rfl, rfl⟩

/-! ### Pairs -/

/-- A trace in which deletions and events go in pairs. -/
structure Paired (around : Surroundings World) (plan : Plan) (account : String) (world : World)
    (trace : List Exchange) : Prop where
  /-- A host that is to be removed belongs to the account and was among candidates that the store
  answered; by the last such answer it stands behind the survivor. When the removal is confirmed, the
  one event handed over before the next removal is the host's, with that survivor; no other removal
  has an event. -/
  removals : ∀ before id answer after, trace = before ++ .delete id answer :: after →
    ∃ clock duplicate survivor moment,
      (accountClock around plan account world).1 = .ok clock ∧
        Due plan clock account before duplicate survivor ∧
        duplicate.id = id ∧ duplicate.account = account ∧
        (∃ filter found, .candidates account filter (.ok found) ∈ before ∧ duplicate ∈ found) ∧
        handedNext after = eventsDue duplicate survivor moment answer
  /-- There is no event before the first removal. -/
  first : handedNext trace = []
  /-- No host is to be removed twice, where answers hold no identifier twice. -/
  once : DistinctAnswers account trace → (targets trace).Nodup
  /-- A dry pass neither removes nor hands over anything. -/
  rehearsed : plan.options.dryRun = true → ∀ exchange ∈ trace, exchange.quiet = true

/-- Quiet calls hold no pairs. -/
theorem Paired.of_quiet {around : Surroundings World} {world : World} {trace : List Exchange}
    (quiet : ∀ exchange ∈ trace, exchange.quiet = true) : Paired around plan account world trace where
  removals := by
    rintro before id answer after rfl
    have named := quiet (.delete id answer) (by simp)
    simp [Exchange.quiet, Exchange.target?] at named
  first := by
    refine List.filterMap_eq_nil_iff.2 fun exchange among => ?_
    exact (Exchange.quiet_iff.1 (quiet exchange ((List.takeWhile_sublist _).subset among))).2
  once := by
    have none : targets trace = [] := List.filterMap_eq_nil_iff.2 fun exchange among =>
      (Exchange.quiet_iff.1 (quiet exchange among)).1
    rw [none]
    exact fun _ => List.nodup_nil
  rehearsed := fun _ => quiet

theorem Orderly.pairs {around : Surroundings World} {world : World} {trace : List Exchange}
    (orderly : Orderly plan clock account trace)
    (clocked : (accountClock around plan account world).1 = .ok clock)
    (real : plan.options.dryRun = false) : Paired around plan account world trace where
  removals := by
    intro before id answer after split
    obtain ⟨duplicate, survivor, moment, due, same, handed⟩ := orderly.paired split
    exact ⟨clock, duplicate, survivor, moment, clocked, due, same, due.belongs.1, due.belongs.2, handed⟩
  first := orderly.first
  once := orderly.once
  rehearsed := fun dry => by simp [dry] at real

/-- Whatever store and emitter answer, deletions and events of a pass over an account go in pairs, and
a pass that returns has counted the confirmed deletions and an event, taken or refused, for each of
them. The pass is the one without a trace. -/
theorem resolveAccount_paired (around : Surroundings World) (plan : Plan) (account : String)
    (world : World) :
    let result := resolveAccount around.traced plan account ⟨world, []⟩
    resolveAccount around plan account world = (result.1, result.2.world) ∧
      Paired around plan account world result.2.trace ∧
      ∀ summary, result.1 = .ok summary →
        summary.hostsDeleted = result.2.trace.countP Exchange.confirms ∧
          summary.hostsDeleted = summary.eventsEmitted + summary.eventsFailed := by
  intro result
  refine ⟨resolveAccount_traced around plan account ⟨world, []⟩, ?_, fun summary returned => ?_⟩
  · cases dry : plan.options.dryRun with
    | true => exact .of_quiet (passAccount_dry_quiet around dry account world)
    | false =>
        rcases passAccount_orderly around dry account world with
          ⟨clock, clocked, orderly⟩ | ⟨exchange, quiet, single⟩
        · exact orderly.pairs clocked dry
        · refine .of_quiet fun other among => ?_
          have among : other ∈ (passAccount around.traced plan account ⟨world, []⟩).2.world.trace := among
          rw [single] at among
          obtain rfl := List.mem_singleton.1 among
          exact quiet
  · obtain ⟨rfl, -⟩ := outcome_ok returned
    have accounted := passAccount_accounted around plan account world
    have tallied := passAccount_tallied around.traced plan account ⟨world, []⟩
    exact ⟨accounted.deleted, tallied.deleted.trans tallied.events.symm⟩

end Passes

open Rehearsal

/-- Of three hosts two are to be removed, and somebody else removes the first of them just before: only
the other one's removal is confirmed. -/
theorem three_hosts_paired :
    let around := surroundings { vanishing := [⟨2, by decide⟩] } Inventory.store
      (.ofUnixSeconds 1767225600)
    let trace := (resolveAccount around.traced (calmPlan 1) "acct-1" ⟨threeHostStage, []⟩).2.trace
    DistinctAnswers "acct-1" trace ∧ (targets trace).Nodup ∧
      targets trace = [⟨2, by decide⟩, ⟨1, by decide⟩] ∧ trace.countP Exchange.confirms = 1 := by
  intro around trace
  have distinct : DistinctAnswers "acct-1" trace := by
    intro filter found among
    have every : ∀ exchange ∈ trace, (exchange.found.map Host.id).Nodup := by decide
    exact List.pairwise_map.1 (every _ among)
  obtain ⟨-, paired, -⟩ := resolveAccount_paired around (calmPlan 1) "acct-1" threeHostStage
  exact ⟨distinct, paired.once distinct, by decide, by decide⟩

end Pruning

end HostPruning
