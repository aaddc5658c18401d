import HostPruning.Proofs.Halting

/-!
# How a run flushes

Between the listing of the accounts and the flush a run resolves its accounts in turn
(`visitAccounts_resolves`). Nothing in that flushes (`visitAccounts_unflushed`), so in any surroundings
there is one flush, behind all other calls, and it is made however the resolution ends. The failure of
the resolution counts before that of the flush (`run_flushes`).
-/

namespace HostPruning

/-- A trace without a flush. -/
def Unflushed (trace : List Exchange) : Prop := ∀ answer, .flush answer ∉ trace

namespace Unflushed

variable {trace : List Exchange}

theorem append (unflushed : Unflushed trace) {calls : List Exchange} (others : Unflushed calls) :
    Unflushed (trace ++ calls) := by
  intro answer among
  rcases List.mem_append.1 among with before | new
  · exact unflushed answer before
  · exact others answer new

end Unflushed

namespace Pruning

variable {World : Type}

/-- Resolve accounts one after the other, until the stop signal, an interrupted account or a failure
ends it. -/
def resolveInTurn (around : Surroundings World) (plan : Plan) :
    List String → Summary → Call World Summary
  | [], summary => fun world => (.ok summary, world)
  | account :: rest, summary => fun world =>
      match around.stopRequested world with
      | (true, world) => (.ok { summary with interrupted := true }, world)
      | (false, world) =>
          match resolveAccount around plan account world with
          | (.error failure, world) => (.error failure, world)
          | (.ok counted, world) =>
              if (summary.absorb counted).interrupted then (.ok (summary.absorb counted), world)
              else resolveInTurn around plan rest (summary.absorb counted) world

/-- What a flush makes of a resolution, call by call. -/
structure Flushed (around : Surroundings World) (resolved result : Except Failure Summary × Traced World) :
    Prop where
  unflushed : Unflushed resolved.2.trace
  once : result.2.trace = resolved.2.trace ++ [.flush (around.emitter.flush resolved.2.world).1]
  failed : ∀ failure, resolved.1 = .error failure → result.1 = .error failure
  returned : ∀ summary, resolved.1 = .ok summary →
    (result.1 = .ok summary ↔ (around.emitter.flush resolved.2.world).1 = .ok ())
  refused : ∀ summary failure, resolved.1 = .ok summary →
    (around.emitter.flush resolved.2.world).1 = .error failure → result.1 = .error failure

/-- To finish is to flush once. -/
theorem finish_flushed (around : Surroundings World) {resolved : Except Failure Summary × Traced World}
    (unflushed : Unflushed resolved.2.trace) :
    Flushed around resolved (finish around.traced resolved.1 resolved.2) := by
  obtain ⟨outcome, traced⟩ := resolved
  refine ⟨unflushed, ?_, ?_, ?_, ?_⟩
  · rw [finish_world]
    rfl
  · rintro failure rfl
    rfl
  · rintro summary rfl
    dsimp only [finish, Surroundings.traced, Call.traced]
    cases (around.emitter.flush traced.world).1 <;> simp
  · rintro summary failure rfl refused
    dsimp only [finish, Surroundings.traced, Call.traced] at refused ⊢
    rw [refused]

/-! ### Nothing before the end flushes -/

theorem Reading.unflushed {around : Surroundings World} {before after : Traced World}
    (reading : Reading around.traced before after) (unflushed : Unflushed before.trace) :
    Unflushed after.trace := by
  cases reading <;> exact unflushed.append (by simp [Unflushed])

theorem Attempted.unflushed {plan : Plan} {decision : Decision} {pass : Pass (Traced World)}
    {result : Ending × Pass (Traced World)} (attempted : Attempted plan decision pass result)
    (unflushed : Unflushed pass.world.trace) : Unflushed result.2.world.trace := by
  cases attempted with
  | rehearsed dry => exact unflushed
  | kept real answer world otherwise => exact unflushed.append (by simp [Unflushed])
  | published real moment answer world => exact unflushed.append (by simp [Unflushed])

/-- A pass makes no flush. -/
theorem passAccount_unflushed (around : Surroundings World) (plan : Plan) (account : String)
    {traced : Traced World} (unflushed : Unflushed traced.trace) :
    Unflushed (passAccount around.traced plan account traced).2.world.trace := by
  have kept : Kept around.traced plan account fun pass => Unflushed pass.world.trace :=
    { reads := fun reading before => reading.unflushed before
      counts := fun _ before => before
      removes := fun _ before => (removeDuplicate_attempted around plan _ _).unflushed before }
  exact passAccount_keeps kept unflushed

theorem visitAccounts_unflushed (around : Surroundings World) (plan : Plan) (accounts : List String)
    {progress : Progress (Traced World)} (unflushed : Unflushed progress.world.trace) :
    Unflushed (visitAccounts around.traced plan accounts progress).2.world.trace := by
  have kept : RunKept around.traced plan fun progress => Unflushed progress.world.trace :=
    { reads := fun reading before => reading.unflushed before
      stops := fun before => before
      absorbs := fun before => passAccount_unflushed around plan _ before }
  exact visitAccounts_keeps kept unflushed

/-! ### A run resolves its accounts in turn -/

/-- Visiting accounts is resolving them in turn. The two agree on when to go on because the counts of a
pass say whether it was interrupted. -/
theorem visitAccounts_resolves (around : Surroundings World) (plan : Plan) (accounts : List String)
    {progress : Progress (Traced World)}
    (heeded : Heeded .completed progress.summary.interrupted progress.world.trace) :
    let result := visitAccounts around.traced plan accounts progress
    resolveInTurn around.traced plan accounts progress.summary progress.world =
      (result.1.outcome result.2.summary, result.2.world) := by
  induction accounts generalizing progress with
  | nil => rfl
  | cons account rest inductionHypothesis =>
      unfold visitAccounts resolveInTurn
      rw [stopRequested_traced]
      cases around.stopRequested progress.world.world with
      | mk stopped world =>
          cases stopped with
          | true => rfl
          | false =>
              have asked : Heeded .completed progress.summary.interrupted
                (progress.world.note (.poll false) world).trace := heeded.call [_] (by simp) (by simp)
              have passed := passAccount_heeds around plan account asked.of_completed.2
              have going := heeded.of_completed.1
              dsimp only [resolveAccount]
              cases ended : passAccount around.traced plan account
                  (progress.world.note (.poll false) world) with
              | mk ending pass =>
                  rw [ended] at passed
                  have noted : (progress.summary.absorb pass.summary).interrupted =
                      pass.summary.interrupted := by
                    dsimp only [Summary.absorb]
                    rw [going, Bool.false_or]
                  cases ending with
                  | failed failure => rfl
                  | interrupted =>
                      have interrupted : pass.summary.interrupted = true := passed.of_interrupted
                      dsimp only [Ending.outcome]
                      rw [if_pos (noted.trans interrupted)]
                      rfl
                  | completed =>
                      have completed : pass.summary.interrupted = false := passed.of_completed.1
                      have onward : Heeded .completed (progress.absorb pass).summary.interrupted
                          (progress.absorb pass).world.trace := by
                        dsimp only [Progress.absorb]
                        rw [noted]
                        exact passed
                      dsimp only [Ending.outcome]
                      rw [if_neg (by simp [noted, completed])]
                      exact inductionHypothesis onward

/-- Listing the accounts is one call, and its failure is that of the call. -/
theorem scanAccounts_noted (around : Surroundings World) (traced : Traced World) :
    ∃ answer, (scanAccounts around.traced.store traced).2.trace = traced.trace ++ [.accounts answer] ∧
      ∀ failure, (scanAccounts around.traced.store traced).1 = .error failure →
        answer = .error failure := by
  refine ⟨(around.store.accounts traced.world).1, ?_⟩
  dsimp only [scanAccounts, Surroundings.traced, Call.traced]
  cases (around.store.accounts traced.world).1 with
  | error failure =>
      refine ⟨rfl, ?_⟩
      rintro _ ⟨⟩
      rfl
  | ok names => exact ⟨rfl, by rintro _ ⟨⟩⟩

/-- In any surroundings a run that listed its accounts, and pruning one account, come to a resolution
without a flush and one flush behind it. A failed resolution fails the whole, whatever the flush
answers; counts are returned exactly when the flush succeeds, and else the failure is that of the flush.
A run that cannot list the accounts makes no other call. -/
theorem run_flushes (around : Surroundings World) (plan : Plan) (account : String) (world : World) :
    (match scanAccounts around.traced.store ⟨world, []⟩ with
      | (.error failure, listed) =>
          run around.traced plan ⟨world, []⟩ = (.error failure, listed) ∧
            listed.trace = [.accounts (.error failure)]
      | (.ok accounts, listed) =>
          Flushed around
            (resolveInTurn around.traced plan accounts { dryRun := plan.options.dryRun } listed)
            (run around.traced plan ⟨world, []⟩)) ∧
      Flushed around (resolveAccount around.traced plan account ⟨world, []⟩)
        (runAccount around.traced plan account ⟨world, []⟩) ∧
      run around plan world = (run around.traced plan ⟨world, []⟩).map id Traced.world ∧
      runAccount around plan account world =
        (runAccount around.traced plan account ⟨world, []⟩).map id Traced.world := by
  refine ⟨?_, ?_, run_traced around plan ⟨world, []⟩,
    eq_traced (runAccount_alike (mirror_traced plan around) account) ⟨world, []⟩⟩
  · obtain ⟨answer, noted, unlisted⟩ := scanAccounts_noted around ⟨world, []⟩
    unfold run
    cases scanned : scanAccounts around.traced.store ⟨world, []⟩ with
    | mk outcome listed =>
        rw [scanned] at noted unlisted
        cases outcome with
        | error failure =>
            rw [unlisted failure rfl] at noted
            exact ⟨rfl, noted⟩
        | ok accounts =>
            have heeded : Heeded .completed false listed.trace := by
              rw [noted]
              exact .unasked (by simp) (by simp)
            have unflushed : Unflushed listed.trace := by
              rw [noted]
              simp [Unflushed]
            have resolves := @visitAccounts_resolves World around plan accounts
              (Progress.start plan listed) heeded
            dsimp only [Progress.start] at resolves ⊢
            rw [resolves]
            exact finish_flushed around (visitAccounts_unflushed around plan accounts unflushed)
  · exact finish_flushed around (passAccount_unflushed around plan account (by simp [Unflushed]))

end Pruning

end HostPruning
