import HostPruning.Proofs.Lockstep

/-!
# Traces of calls

A traced run notes every call it makes and how it was answered, the polls of the stop signal
among them. Noting has no part in what a run does (`resolveAccount_traced`, `run_traced`), so
what a trace shows is what a run in the plain surroundings did, whatever these answer.

`Attempted` says what one removal adds to a trace, and `Carried` what has to be shown of a
property of passes and of how they have ended so that it holds after any pass
(`passAccount_carries`). The latter goes further than `Kept`: it tells how a part of a pass ended,
and deals with the candidates of a scanned host as one thing, since these are where the loops of
removals begin.
-/

namespace HostPruning

/-- A call with its answer. -/
inductive Exchange where
  | accounts (answer : Except Failure (List String))
  | page (account : String) (after : Option HostId) (limit : Nat) (answer : Except Failure (List Host))
  | candidates (account : String) (filter : FactFilter) (answer : Except Failure (List Host))
  | delete (id : HostId) (answer : Except Failure Removal)
  | policy (account : String) (answer : Except Failure (Option Lifecycle.Policy))
  | emit (key : HostId) (event : DeleteEvent) (answer : Except Failure Unit)
  | flush (answer : Except Failure Unit)
  /-- The stop signal was looked at. -/
  | poll (stop : Bool)

namespace Exchange

/-- The host a call is to remove. -/
def target? : Exchange → Option HostId
  | delete id _ => some id
  | _ => none

/-- The event a call hands over, with its key. -/
def handed? : Exchange → Option (HostId × DeleteEvent)
  | emit key event _ => some (key, event)
  | _ => none

/-- Whether a call neither removes a host nor hands over an event. -/
def quiet (exchange : Exchange) : Bool := exchange.target?.isNone && exchange.handed?.isNone

theorem quiet_iff {exchange : Exchange} :
    exchange.quiet = true ↔ exchange.target? = none ∧ exchange.handed? = none := by
  simp [quiet]

end Exchange

/-- A world and the calls made so far, first one first. -/
structure Traced (World : Type) where
  world : World
  trace : List Exchange

/-- Note a call in a trace. -/
def Traced.note {World : Type} (traced : Traced World) (exchange : Exchange) (world : World) :
    Traced World :=
  ⟨world, traced.trace ++ [exchange]⟩

/-- A call that is noted with its answer. -/
def Call.traced {World Answer : Type} (exchange : Except Failure Answer → Exchange)
    (call : Call World Answer) : Call (Traced World) Answer := fun traced =>
  ((call traced.world).1, traced.note (exchange (call traced.world).1) (call traced.world).2)

namespace Pruning

variable {World : Type}

/-- Surroundings whose calls are noted. -/
def Surroundings.traced (around : Surroundings World) : Surroundings (Traced World) where
  store :=
    { accounts := around.store.accounts.traced .accounts
      page := fun account after limit =>
        (around.store.page account after limit).traced (.page account after limit)
      candidates := fun account filter =>
        (around.store.candidates account filter).traced (.candidates account filter)
      delete := fun id => (around.store.delete id).traced (.delete id)
      policy := fun account => (around.store.policy account).traced (.policy account) }
  emitter :=
    { emit := fun key event => (around.emitter.emit key event).traced (.emit key event)
      flush := around.emitter.flush.traced .flush }
  stopRequested traced :=
    ((around.stopRequested traced.world).1,
      traced.note (.poll (around.stopRequested traced.world).1) (around.stopRequested traced.world).2)
  eventTime traced := around.eventTime traced.world

theorem stopRequested_traced (around : Surroundings World) (traced : Traced World) :
    around.traced.stopRequested traced =
      ((around.stopRequested traced.world).1, traced.note (.poll (around.stopRequested traced.world).1)
        (around.stopRequested traced.world).2) := rfl

/-! ### Noting changes nothing -/

/-- A traced call does what the call does. -/
theorem traced_alike {Answer : Type} {translate : Answer → Answer}
    (unchanged : ∀ answer, translate answer = answer) (exchange : Except Failure Answer → Exchange)
    (call : Call World Answer) :
    Call.Alike (fun world traced => traced.world = world) translate call (call.traced exchange) := by
  rintro world traced rfl
  have same : translate = id := funext unchanged
  refine ⟨?_, rfl⟩
  rw [same]
  dsimp only [Call.traced]
  cases (call traced.world).1 <;> rfl

theorem mirror_traced (plan : Plan) (around : Surroundings World) :
    Mirror plan around around.traced (fun world traced => traced.world = world) (fun host => host)
      fun _ => True where
  faithful := .unchanged
  accounts := traced_alike (fun _ => rfl) _ _
  pages _ _ := traced_alike (fun _ => List.map_id' _) _ _
  paged _ _ _ _ _ _ _ _ _ := trivial
  candidates _ _ _ _ _ _ := traced_alike (fun _ => List.map_id' _) _ _
  deletes _ := traced_alike (fun _ => rfl) _ _
  policies _ := traced_alike (fun _ => rfl) _ _
  emits _ _ := traced_alike (fun _ => rfl) _ _
  flushes := traced_alike (fun _ => rfl) _ _
  stops := by
    rintro world traced rfl
    exact ⟨rfl, rfl⟩
  times := by
    rintro world traced rfl
    rfl

/-- A traced call that does the same as a plain one. -/
theorem eq_traced {Answer : Type} {call : Call World Answer} {other : Call (Traced World) Answer}
    (alike : Call.Alike (fun world traced => traced.world = world) (fun answer => answer) call other)
    (traced : Traced World) : call traced.world = (other traced).map id Traced.world := by
  obtain ⟨answers, worlds⟩ := alike (rfl : traced.world = traced.world)
  refine Prod.ext ?_ worlds.symm
  rw [Prod.map_fst, id_eq, answers]
  cases (call traced.world).1 <;> rfl

/-- Pruning an account while noting the calls is pruning it. -/
theorem resolveAccount_traced (around : Surroundings World) (plan : Plan) (account : String)
    (traced : Traced World) : resolveAccount around plan account traced.world =
      (resolveAccount around.traced plan account traced).map id Traced.world :=
  eq_traced (resolveAccount_alike (mirror_traced plan around) account) traced

theorem accountClock_traced (around : Surroundings World) (plan : Plan) (account : String)
    (traced : Traced World) : accountClock around plan account traced.world =
      (accountClock around.traced plan account traced).map id Traced.world :=
  eq_traced (accountClock_alike (mirror_traced plan around) account) traced

/-- A run that notes its calls is the run. -/
theorem run_traced (around : Surroundings World) (plan : Plan) (traced : Traced World) :
    run around plan traced.world = (run around.traced plan traced).map id Traced.world :=
  eq_traced (run_alike (mirror_traced plan around)) traced

/-- Every reading is noted as one quiet call. -/
theorem Reading.traced {around : Surroundings World} {before after : Traced World}
    (reading : Reading around.traced before after) :
    ∃ exchange, exchange.quiet = true ∧ after.trace = before.trace ++ [exchange] := by
  cases reading <;> exact ⟨_, rfl, rfl⟩

/-! ### What a removal adds to a trace -/

/-- How a call leaves a part of a pass that goes on unless the call fails. -/
def Ending.after {Answer : Type} : Except Failure Answer → Ending
  | .ok _ => .completed
  | .error failure => .failed failure

/-- How the answer to an event leaves a pass. -/
def Plan.afterEvent (plan : Plan) : Except Failure Unit → Ending
  | .ok _ => .completed
  | .error failure =>
      match plan.options.emitFailure with
      | .continue => .completed
      | .abort => .failed failure

/-- Count what came of an event. -/
def Summary.answered (answer : Except Failure Unit) (summary : Summary) : Summary :=
  match answer with
  | .ok _ => { summary with eventsEmitted := summary.eventsEmitted + 1 }
  | .error _ => { summary with eventsFailed := summary.eventsFailed + 1 }

/-- What a removal comes to: in a dry run nothing but the decision, else a deletion, and behind one
that was answered with "deleted" the event. -/
inductive Attempted (plan : Plan) (decision : Decision) (pass : Pass (Traced World)) :
    Ending × Pass (Traced World) → Prop where
  | rehearsed (dry : plan.options.dryRun = true) :
      Attempted plan decision pass (.completed, pass.decide decision)
  | kept (real : plan.options.dryRun = false) (answer : Except Failure Removal) (world : World)
      (otherwise : answer ≠ .ok .deleted) :
      Attempted plan decision pass (.after answer,
        (pass.decide decision).inWorld
          ⟨world, pass.world.trace ++ [.delete decision.duplicate.id answer]⟩)
  | published (real : plan.options.dryRun = false) (moment : Moment) (answer : Except Failure Unit)
      (world : World) :
      Attempted plan decision pass (plan.afterEvent answer,
        (((pass.decide decision).inWorld
          ⟨world, pass.world.trace ++ [.delete decision.duplicate.id (.ok .deleted),
            .emit decision.duplicate.id (DeleteEvent.ofDuplicate decision.duplicate
              decision.survivor.id moment) answer]⟩).carryOut decision).count
                (Summary.answered answer))

theorem removeDuplicate_attempted (around : Surroundings World) (plan : Plan) (decision : Decision)
    (pass : Pass (Traced World)) :
    Attempted plan decision pass (removeDuplicate around.traced plan decision pass) := by
  unfold removeDuplicate
  dsimp only
  split
  next dry => exact .rehearsed dry
  next real =>
    have real : plan.options.dryRun = false := by simpa using real
    dsimp only [Surroundings.traced, Call.traced, Pass.decide]
    cases around.store.delete decision.duplicate.id pass.world.world with
    | mk answer world =>
        cases answer with
        | error failure => exact .kept real (.error failure) world (by simp)
        | ok removal =>
            cases removal with
            | notFound => exact .kept real (.ok .notFound) world (by simp)
            | deleted =>
                unfold publishRemoval
                dsimp only [Surroundings.traced, Call.traced, Pass.carryOut, Pass.inWorld, Traced.note]
                have published := @Attempted.published World plan decision pass real
                  (around.eventTime world)
                cases around.emitter.emit decision.duplicate.id (DeleteEvent.ofDuplicate
                    decision.duplicate decision.survivor.id (around.eventTime world)) world with
                | mk heard next =>
                    have reached := published heard next
                    cases heard with
                    | ok handed => simpa [Plan.afterEvent, Summary.answered, Pass.decide, Pass.carryOut,
                        Pass.inWorld, Pass.count] using reached
                    | error failure =>
                        cases refusal : plan.options.emitFailure <;>
                          simpa [Plan.afterEvent, Summary.answered, Pass.decide, Pass.carryOut,
                            Pass.inWorld, Pass.count, refusal] using reached

/-! ### What a pass keeps along with how it ended -/

/-- The counts that only removals, events and a stop change. -/
def Summary.outcome (summary : Summary) : (Nat × Nat × Nat × Nat) × Bool :=
  (summary.tally, summary.interrupted)

/-- A property of passes and of how they have ended that everything a pass does keeps. -/
structure Carried (around : Surroundings World) (plan : Plan) (clock : Lifecycle.Clock)
    (account : String) (motive : Ending → Pass World → Prop) : Prop where
  counts : ∀ {pass change}, (∀ summary : Summary, (change summary).outcome = summary.outcome) →
    motive .completed pass → motive .completed (pass.count change)
  pages : ∀ {pass} (scan : Scan), motive .completed pass →
    motive (.after (scan.fetch around.store pass.world).1)
      (pass.inWorld (scan.fetch around.store pass.world).2)
  candidates : ∀ {pass} filter, motive .completed pass →
    motive (.after (around.store.candidates account filter pass.world).1)
      (pass.inWorld (around.store.candidates account filter pass.world).2)
  resolves : ∀ {pass scanned world filter found},
    around.store.candidates account filter world = (.ok found, pass.world) →
      motive .completed pass →
        motive (resolveCandidates around plan clock account scanned found pass).1
          (resolveCandidates around plan clock account scanned found pass).2
  exhausted : ∀ {pass}, motive .completed pass → motive (.failed .pagesExhausted) pass

section Passes

variable {around : Surroundings World} {plan : Plan} {clock : Lifecycle.Clock} {account : String}
  {motive : Ending → Pass World → Prop}

theorem visitHost_carries (carried : Carried around plan clock account motive) (host : Host)
    {pass : Pass World} (holds : motive .completed pass) :
    motive (visitHost around plan clock account host pass).1
      (visitHost around plan clock account host pass).2 := by
  have scanned : motive .completed (pass.count fun summary =>
      { summary with hostsScanned := summary.hostsScanned + 1 }) := carried.counts (fun _ => rfl) holds
  unfold visitHost
  dsimp only
  split
  next => exact scanned
  next =>
    split
    next =>
      dsimp only
      refine carried.counts ?_ scanned
      exact fun _ => rfl
    next => exact scanned
    next basis filter made =>
      have asked := carried.candidates filter scanned
      split
      next failure world failed =>
        rw [failed] at asked
        exact asked
      next found world answered =>
        rw [answered] at asked
        exact carried.resolves answered asked

theorem visitPage_carries (carried : Carried around plan clock account motive) (hosts : List Host)
    {pass : Pass World} (holds : motive .completed pass) :
    motive (visitPage around plan clock account hosts pass).1
      (visitPage around plan clock account hosts pass).2 := by
  induction hosts generalizing pass with
  | nil => exact holds
  | cons host rest inductionHypothesis =>
      have visited := visitHost_carries carried host holds
      unfold visitPage
      split
      next after completed =>
        rw [completed] at visited
        exact inductionHypothesis visited
      next => exact visited

theorem visitPages_carries (carried : Carried around plan clock account motive) {budget : Nat}
    {scan : Scan} {pass : Pass World} (holds : motive .completed pass) :
    motive (visitPages around plan clock account budget scan pass).1
      (visitPages around plan clock account budget scan pass).2 := by
  induction budget generalizing scan pass with
  | zero => exact carried.exhausted holds
  | succ budget inductionHypothesis =>
      have paged := carried.pages scan holds
      unfold visitPages
      split
      next failure world failed =>
        rw [failed] at paged
        exact paged
      next fetched world answered =>
        rw [answered] at paged
        have visited := visitPage_carries carried fetched.buffer paged
        split
        next after completed =>
          rw [completed] at visited
          split
          · exact visited
          · exact inductionHypothesis visited
        next => exact visited

/-- What everything a pass does keeps holds after the pass, however it ends. It has to hold once the
clock of the account is known, or has turned out not to be. -/
theorem passAccount_carries {world : World}
    (clocked : ∀ clock next, accountClock around plan account world = (.ok clock, next) →
      Carried around plan clock account motive ∧ motive .completed (Pass.start plan next))
    (clockless : ∀ failure next, accountClock around plan account world = (.error failure, next) →
      motive (.failed failure) (Pass.start plan next)) :
    motive (passAccount around plan account world).1 (passAccount around plan account world).2 := by
  unfold passAccount
  split
  next failure next failed => exact clockless failure next failed
  next clock next answered =>
    obtain ⟨carried, initially⟩ := clocked clock next answered
    exact visitPages_carries carried initially

end Passes

/-- A traced page query is one quiet call. -/
theorem fetch_traced (around : Surroundings World) (scan : Scan) (traced : Traced World) :
    ∃ answer, (scan.fetch around.traced.store traced).2.trace =
        traced.trace ++ [.page scan.account scan.fetched scan.chunkSize answer] := by
  unfold Scan.fetch
  split
  next failure next failed => exact ⟨_, congrArg (fun result => result.2.trace) failed.symm⟩
  next page next answered => exact ⟨_, congrArg (fun result => result.2.trace) answered.symm⟩

/-- Finding the clock of an account is one quiet call. -/
theorem accountClock_noted (around : Surroundings World) (plan : Plan) (account : String)
    (traced : Traced World) :
    ∃ answer, (accountClock around.traced plan account traced).2.trace =
      traced.trace ++ [.policy account answer] := by
  unfold accountClock
  split
  next failed => exact ⟨_, congrArg (fun result => result.2.trace) failed.symm⟩
  next answered => exact ⟨_, congrArg (fun result => result.2.trace) answered.symm⟩
  next answered =>
    split
    · exact ⟨_, congrArg (fun result => result.2.trace) answered.symm⟩
    · exact ⟨_, congrArg (fun result => result.2.trace) answered.symm⟩

end Pruning

end HostPruning
