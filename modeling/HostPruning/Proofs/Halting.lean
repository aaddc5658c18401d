import Mathlib.Data.List.Basic
import HostPruning.Proofs.Tracing

/-!
# How a run heeds a stop

In any surroundings a run ends at the first poll that is answered with a stop: nothing comes
behind it but the flush, in this account or in a later one, and the counts say that the run was
interrupted. A run in which no poll is answered so is not interrupted (`run_heeds`).
-/

namespace HostPruning.Pruning

variable {World : Type}

/-- How an ending, the note of an interruption and a trace go together: the first stop is the last
call. -/
inductive Heeded : Ending → Bool → List Exchange → Prop where
  | stopped {calls : List Exchange} (unasked : .poll true ∉ calls) :
      Heeded .interrupted true (calls ++ [.poll true])
  | unasked {ending : Ending} {calls : List Exchange} (other : ending ≠ .interrupted)
      (unasked : .poll true ∉ calls) : Heeded ending false calls

namespace Heeded

variable {noted : Bool} {trace : List Exchange}

theorem of_completed (heeded : Heeded .completed noted trace) :
    noted = false ∧ .poll true ∉ trace := by
  cases heeded with
  | unasked other unasked => exact ⟨rfl, unasked⟩

theorem of_interrupted (heeded : Heeded .interrupted noted trace) : noted = true := by
  cases heeded with
  | stopped unasked => rfl
  | unasked other unasked => exact absurd rfl other

/-- Other calls keep a pass going or fail it. -/
theorem call (heeded : Heeded .completed noted trace) (calls : List Exchange) {ending : Ending}
    (other : ending ≠ .interrupted) (silent : .poll true ∉ calls) :
    Heeded ending noted (trace ++ calls) := by
  obtain ⟨rfl, unasked⟩ := heeded.of_completed
  refine .unasked other fun among => ?_
  rcases List.mem_append.1 among with before | new
  · exact unasked before
  · exact silent new

theorem stop (heeded : Heeded .completed noted trace) :
    Heeded .interrupted true (trace ++ [.poll true]) :=
  .stopped heeded.of_completed.2

end Heeded

theorem after_ne_interrupted {Answer : Type} (answer : Except Failure Answer) :
    Ending.after answer ≠ .interrupted := by
  cases answer <;> simp [Ending.after]

theorem afterEvent_ne_interrupted (plan : Plan) (answer : Except Failure Unit) :
    plan.afterEvent answer ≠ .interrupted := by
  unfold Plan.afterEvent
  split
  · simp
  · split <;> simp

/-! ### Passes -/

/-- `Heeded` for a part of a pass. -/
def Heeds (ending : Ending) (pass : Pass (Traced World)) : Prop :=
  Heeded ending pass.summary.interrupted pass.world.trace

/-- A removal looks at no stop signal. -/
theorem Attempted.heeds {plan : Plan} {decision : Decision} {pass : Pass (Traced World)}
    {result : Ending × Pass (Traced World)} (attempted : Attempted plan decision pass result)
    (heeds : Heeds .completed pass) : Heeds result.1 result.2 := by
  cases attempted with
  | rehearsed dry => exact heeds
  | kept real answer world otherwise =>
      exact heeds.call [_] (after_ne_interrupted answer) (by simp)
  | published real moment answer world =>
      have noted : (Summary.answered answer ((pass.decide decision).carryOut decision).summary).interrupted =
          pass.summary.interrupted := by
        cases answer <;> rfl
      have onward := heeds.call [.delete decision.duplicate.id (.ok .deleted),
        .emit decision.duplicate.id (DeleteEvent.ofDuplicate decision.duplicate decision.survivor.id
          moment) answer] (afterEvent_ne_interrupted plan answer) (by simp)
      rw [← noted] at onward
      exact onward

theorem removeDuplicates_heeds (around : Surroundings World) (plan : Plan) (scanned survivor : Host)
    (duplicates : List Host) {pass : Pass (Traced World)} (heeds : Heeds .completed pass) :
    Heeds (removeDuplicates around.traced plan scanned survivor duplicates pass).1
      (removeDuplicates around.traced plan scanned survivor duplicates pass).2 := by
  induction duplicates generalizing pass with
  | nil => exact heeds
  | cons duplicate rest inductionHypothesis =>
      unfold removeDuplicates
      rw [stopRequested_traced]
      cases around.stopRequested pass.world.world with
      | mk stopped world =>
          cases stopped with
          | true => exact heeds.stop
          | false =>
              have asked : Heeds .completed (pass.inWorld (pass.world.note (.poll false) world)) :=
                heeds.call [_] (by simp) (by simp)
              have removed := (removeDuplicate_attempted around plan ⟨scanned, duplicate, survivor⟩
                (pass.inWorld (pass.world.note (.poll false) world))).heeds asked
              dsimp only
              split
              next after completed =>
                rw [completed] at removed
                exact inductionHypothesis removed
              next => exact removed

theorem carried_heeds (around : Surroundings World) (plan : Plan) (clock : Lifecycle.Clock)
    (account : String) : Carried around.traced plan clock account Heeds where
  counts := by
    intro pass change untouched heeds
    have noted : (change pass.summary).interrupted = pass.summary.interrupted :=
      congrArg Prod.snd (untouched pass.summary)
    unfold Heeds at heeds ⊢
    dsimp only [Pass.count]
    rw [noted]
    exact heeds
  pages := by
    intro pass scan heeds
    obtain ⟨answer, noted⟩ := fetch_traced around scan pass.world
    unfold Heeds
    dsimp only [Pass.inWorld]
    rw [noted]
    exact heeds.call [_] (after_ne_interrupted _) (by simp)
  candidates := by
    intro pass filter heeds
    exact heeds.call [_] (after_ne_interrupted _) (by simp)
  resolves := by
    intro pass scanned world filter found _ heeds
    unfold resolveCandidates
    dsimp only
    split
    · exact heeds
    · exact removeDuplicates_heeds around plan scanned _ _ heeds
  exhausted := by
    intro pass heeds
    have ended : Heeded (.failed .pagesExhausted) pass.summary.interrupted (pass.world.trace ++ []) :=
      heeds.call [] (by simp) (by simp)
    rw [List.append_nil] at ended
    exact ended

/-- A pass heeds the stop signal. -/
theorem passAccount_heeds (around : Surroundings World) (plan : Plan) (account : String)
    {traced : Traced World} (unasked : .poll true ∉ traced.trace) :
    Heeds (passAccount around.traced plan account traced).1
      (passAccount around.traced plan account traced).2 := by
  obtain ⟨answer, noted⟩ := accountClock_noted around plan account traced
  have begun : ∀ ending, ending ≠ .interrupted → ∀ next : Traced World, next.trace =
      traced.trace ++ [.policy account answer] → Heeds ending (Pass.start plan next) := by
    intro ending other next behind
    refine Heeded.unasked other ?_
    simp [Pass.start, behind, unasked]
  apply passAccount_carries
  · intro clock next found
    rw [found] at noted
    exact ⟨carried_heeds around plan clock account, begun .completed (by simp) next noted⟩
  · intro failure next failed
    rw [failed] at noted
    exact begun (.failed failure) (by simp) next noted

/-! ### Runs -/

theorem visitAccounts_heeds (around : Surroundings World) (plan : Plan) (accounts : List String)
    {progress : Progress (Traced World)}
    (heeded : Heeded .completed progress.summary.interrupted progress.world.trace) :
    let result := visitAccounts around.traced plan accounts progress
    Heeded result.1 result.2.summary.interrupted result.2.world.trace := by
  induction accounts generalizing progress with
  | nil => exact heeded
  | cons account rest inductionHypothesis =>
      unfold visitAccounts
      rw [stopRequested_traced]
      cases around.stopRequested progress.world.world with
      | mk stopped world =>
          cases stopped with
          | true => exact heeded.stop
          | false =>
              have asked : Heeded .completed progress.summary.interrupted
                (progress.world.note (.poll false) world).trace := heeded.call [_] (by simp) (by simp)
              have passed := passAccount_heeds around plan account asked.of_completed.2
              have going := heeded.of_completed.1
              dsimp only
              split
              next pass completed =>
                rw [completed] at passed
                refine inductionHypothesis ?_
                dsimp only [Progress.absorb, Summary.absorb]
                rw [going, Bool.false_or]
                exact passed
              next ending pass incomplete ended =>
                rw [ended] at passed
                dsimp only [Progress.absorb, Summary.absorb]
                rw [going, Bool.false_or]
                exact passed

theorem performed_heeds (around : Surroundings World) (plan : Plan) (world : World) :
    let result := performed around.traced plan ⟨world, []⟩
    Heeded result.1 result.2.summary.interrupted result.2.world.trace := by
  unfold performed scanAccounts
  dsimp only [Surroundings.traced, Call.traced]
  cases around.store.accounts world with
  | mk answer next =>
      cases answer with
      | error failure => exact .unasked (by simp) (by simp [Progress.start, Traced.note])
      | ok listed =>
          refine visitAccounts_heeds around plan _ ?_
          exact .unasked (by simp) (by simp [Progress.start, Traced.note])

/-- An interruption is noted exactly when a stop was answered. -/
theorem Heeded.noted_iff {ending : Ending} {noted : Bool} {trace : List Exchange}
    (heeded : Heeded ending noted trace) : noted = true ↔ .poll true ∈ trace := by
  cases heeded with
  | stopped unasked => simp
  | unasked other unasked => simp [unasked]

/-- Behind the first stop a trace that heeds it holds nothing. -/
theorem Heeded.after_stop {ending : Ending} {noted : Bool} {trace before after : List Exchange}
    (heeded : Heeded ending noted trace) {rest : List Exchange}
    (split : trace ++ rest = before ++ .poll true :: after) (silent : .poll true ∉ rest) :
    after = rest := by
  cases heeded with
  | unasked other unasked =>
      have among : .poll true ∈ before ++ .poll true :: after := by simp
      rw [← split, List.mem_append] at among
      exact absurd among (not_or_intro unasked silent)
  | @stopped calls unasked =>
      rw [List.append_assoc, List.singleton_append] at split
      exact ((List.append_cons_inj_of_notMem unasked silent).1 split).2.2.symm

/-- In any surroundings nothing is removed behind a poll that was answered with a stop, and a run that
returns counts has noted an interruption exactly when there was such a poll. -/
theorem run_heeds (around : Surroundings World) (plan : Plan) (world : World) :
    let result := run around.traced plan ⟨world, []⟩
    (∀ before after, result.2.trace = before ++ .poll true :: after →
        ∀ exchange ∈ after, exchange.target? = none) ∧
      ∀ summary, result.1 = .ok summary →
        (summary.interrupted = true ↔ .poll true ∈ result.2.trace) := by
  intro result
  have heeded := performed_heeds around plan world
  rcases run_eq around.traced plan ⟨world, []⟩ with ⟨failure, failed, unlisted⟩ | finished
  · have trace : result.2.trace = (performed around.traced plan ⟨world, []⟩).2.world.trace ++ [] := by
      rw [List.append_nil]
      exact congrArg (fun result => result.2.trace) unlisted
    constructor
    · intro before after split exchange among
      rw [trace] at split
      rw [heeded.after_stop split (by simp)] at among
      cases among
    · intro summary returned
      dsimp only [result] at returned
      rw [unlisted] at returned
      cases returned
  · have trace : result.2.trace = (performed around.traced plan ⟨world, []⟩).2.world.trace ++
        [.flush (around.emitter.flush (performed around.traced plan ⟨world, []⟩).2.world.world).1] := by
      dsimp only [result]
      rw [finished, finish_world]
      rfl
    constructor
    · intro before after split exchange among
      rw [trace] at split
      rw [heeded.after_stop split (by simp)] at among
      obtain rfl := List.mem_singleton.1 among
      rfl
    · intro summary returned
      obtain ⟨rfl, unfailed⟩ := performed_of_run_ok returned
      rw [trace, List.mem_append, heeded.noted_iff]
      simp

end HostPruning.Pruning
