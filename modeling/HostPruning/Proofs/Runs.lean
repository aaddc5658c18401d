import HostPruning.Proofs.Passes

/-!
# A run follows the decisions its inventory calls for

Passes over different accounts do not see each other, so in custody a run makes the
decisions of `Plan.decisions`, account by account, until something ends it early
(`performed_follows`). What it leaves stored is what was stored before it without the hosts
it removed (`held_run`), however it ended.
-/

namespace HostPruning.Pruning

open Inventory

variable {World : Type} {custody : Custody World} {plan : Plan} {scope : List String}
  {start : Inventory} {removals expected : List Decision}

/-! ### The decisions of a run -/

/-- What can make a run fail after some removals can make it fail from the start on. -/
theorem Excuse.widen {later : List Decision} {failure : Failure}
    (excuse : Excuse custody plan scope (start.after removals) later failure) :
    Excuse custody plan scope start (removals ++ later) failure := by
  cases excuse with
  | store fails => exact .store fails
  | emission aborts last answered =>
      refine .emission aborts ?_ answered
      rw [List.getLast?_append, last, Option.some_or]
  | policy visited stored invalid => exact .policy visited stored invalid
  | @pages account short =>
      have fewer : ((start.after removals).hostsOf account).length ≤ (start.hostsOf account).length := by
        rw [hostsOf_after]
        exact List.length_filter_le _ _
      exact .pages (short.imp_right fun small => Nat.le_trans small fewer)

/-- A run in step goes on with a pass over what it left stored. -/
theorem Leads.absorb {progress : Progress World} {ending : Ending} {pass : Pass World}
    (leads : Leads custody plan scope (start.after progress.removals) expected (ending, pass))
    (inStep : InStep custody plan start progress) :
    Follows custody plan scope start (progress.decisions ++ expected) ending (progress.absorb pass) where
  held := by
    rw [Progress.absorb, after_append]
    exact leads.held
  removed := by
    rw [Progress.absorb, due_append, ← inStep.carried]
    exact (List.prefix_append_right_inj _).2 leads.removed
  decided := (List.prefix_append_right_inj _).2 leads.decided
  completed := fun completed => congrArg (progress.decisions ++ ·) (leads.completed completed)
  interrupted := fun interrupted => by
    have noted := leads.interrupted interrupted
    simp only [Pass.progress] at noted
    simp [Progress.absorb, Summary.absorb, noted]
  carried := fun unfailed => by
    rw [Progress.absorb, due_append, ← inStep.carried]
    exact congrArg (progress.removals ++ ·) (leads.carried unfailed)
  failed := fun failure failed => (leads.failed failure failed).widen

/-- Accounts that were not yet visited call for the same decisions as at the start. -/
theorem visitAccounts_follows {accounts : List String} {progress : Progress World}
    (inStep : InStep custody plan start progress) (distinct : accounts.Nodup)
    (within : ∀ account ∈ accounts, account ∈ scope)
    (foreign : Foreign start accounts progress.decisions) :
    Follows custody plan scope start
      (progress.decisions ++ accounts.flatMap (accountDecisions plan start))
      (visitAccounts custody.toSurroundings plan accounts progress).1
      (visitAccounts custody.toSurroundings plan accounts progress).2 := by
  induction accounts generalizing progress with
  | nil =>
      rw [List.flatMap_nil, List.append_nil]
      exact inStep.completes
  | cons account rest inductionHypothesis =>
      obtain ⟨accountApart, restDistinct⟩ := List.nodup_cons.1 distinct
      have kept := custody.stop_keeps progress.world
      cases polled : custody.stopRequested progress.world with
      | mk stopped world =>
        rw [polled] at kept
        cases stopped with
        | true =>
            simp only [visitAccounts, polled]
            exact InStep.stops ⟨kept.trans inStep.held, inStep.carried⟩ rfl (List.prefix_append _ _)
        | false =>
            have alike : accountDecisions plan (start.after progress.removals) account =
                accountDecisions plan start account :=
              accountDecisions_congr (foreign.agree inStep.removed.subset List.mem_cons_self)
            have passed := passAccount_leads plan (within account List.mem_cons_self)
              (kept.trans inStep.held)
            rw [alike] at passed
            rw [List.flatMap_cons, ← List.append_assoc]
            cases visited : passAccount custody.toSurroundings plan account world with
            | mk ending pass =>
              rw [visited] at passed
              have absorbed := passed.absorb inStep
              cases ending with
              | completed =>
                  simp only [visitAccounts, polled, visited]
                  have decisions := absorbed.completed rfl
                  rw [← decisions]
                  refine inductionHypothesis absorbed.inStep restDistinct
                    (fun other later => within other (List.mem_cons_of_mem _ later)) ?_
                  rw [decisions]
                  exact foreign.next accountApart plan
              | interrupted =>
                  simp only [visitAccounts, polled, visited]
                  exact absorbed.cut (by rintro ⟨⟩) (List.prefix_append _ _)
              | failed failure =>
                  simp only [visitAccounts, polled, visited]
                  exact absorbed.cut (by rintro ⟨⟩) (List.prefix_append _ _)

/-- A run over accounts only comes to its end when each of them has a valid policy. Whatever
the passes removed, the policies are those of the start. -/
theorem visitAccounts_valid {accounts : List String} {progress : Progress World}
    (policies : (custody.held progress.world).policies = start.policies)
    (completed : (visitAccounts custody.toSurroundings plan accounts progress).1 = .completed) :
    ∀ account ∈ accounts, ValidPolicy start account := by
  induction accounts generalizing progress with
  | nil => exact fun _ among => absurd among List.not_mem_nil
  | cons account rest inductionHypothesis =>
      have kept := custody.stop_keeps progress.world
      unfold visitAccounts at completed
      split at completed
      next => cases completed
      next world goesOn =>
        rw [goesOn] at kept
        have same : (custody.held world).policies = start.policies := by
          rw [← policies]
          exact congrArg Inventory.policies kept
        have passed := passAccount_leads plan (List.mem_singleton_self account)
          (rfl : custody.held world = custody.held world)
        split at completed
        next pass ended =>
          rw [ended] at passed
          have valid := passAccount_valid (congrArg Prod.fst ended)
          rw [ValidPolicy, same] at valid
          have onward : (custody.held (progress.absorb pass).world).policies = start.policies :=
            (congrArg Inventory.policies passed.held).trans same
          intro other among
          rcases List.mem_cons.1 among with rfl | later
          · exact valid
          · exact inductionHypothesis onward completed other later
        next incomplete ended => exact absurd completed incomplete

/-- A run decides what the inventory calls for, as far as it comes. -/
theorem performed_follows (custody : Custody World) (plan : Plan) (world : World) :
    Follows custody plan (custody.held world).accounts (custody.held world)
      (plan.decisions (custody.held world))
      (performed custody.toSurroundings plan world).1
      (performed custody.toSurroundings plan world).2 := by
  obtain ⟨kept, answers⟩ := custody.accounts_reads world
  have begun : ∀ next, custody.held next = custody.held world →
      InStep custody plan (custody.held world) (Progress.start plan next) := by
    intro next same
    exact ⟨same.trans (after_nil _).symm, (due_nil plan).symm⟩
  unfold performed scanAccounts
  cases answered : custody.store.accounts world with
  | mk answer next =>
    rw [answered] at kept answers
    cases answer with
    | error failure =>
        have fails : custody.store.Fails failure := .accounts (congrArg Prod.fst answered)
        exact (begun next kept).fails List.nil_prefix (.store fails)
    | ok listed =>
        have accounts : ascendingDistinct listed = (custody.held world).accounts := by
          refine ascendingDistinct_congr fun account => ?_
          rw [answers listed rfl account, Inventory.accounts, mem_ascendingDistinct]
        have visited := visitAccounts_follows (begun next kept)
          (ascendingDistinct_nodup listed) (fun _ present => accounts ▸ present)
          .nil
        rw [accounts] at visited
        simp only [accounts]
        exact visited

/-! ### What a run removes and leaves -/

section Removed

variable (custody : Custody World) (plan : Plan) (world : World)

/-- The hosts a run removed, first one first, with the decisions that removed them. -/
def removed : List Decision := (performed custody.toSurroundings plan world).2.removals

/-- However a run ends, what it leaves is what it met without the hosts it removed. -/
theorem held_run : custody.held (run custody.toSurroundings plan world).2 =
    (custody.held world).after (removed custody plan world) := by
  have performedHeld := (performed_follows custody plan world).held
  rcases run_world custody.toSurroundings plan world with unflushed | flushed
  · rw [unflushed]
    exact performedHeld
  · rw [flushed]
    exact (custody.flush_keeps _).trans performedHeld

/-- Of three hosts the newest is left. -/
example : (Rehearsal.calm.held (run Rehearsal.calm.toSurroundings (Rehearsal.calmPlan 1)
    Rehearsal.threeHostStage).2).hosts.map (fun host => host.id.value) = [3] := by decide

/-- The removals are decisions that the inventory calls for, the first ones. -/
theorem prefix_removed : removed custody plan world <+: plan.decisions (custody.held world) := by
  have follows := performed_follows custody plan world
  exact follows.removed.trans ((prefix_due plan _).trans follows.decided)

end Removed

section Returned

variable {world : World} {summary : Summary}

/-- A run that returns and was not interrupted came to its end. -/
theorem completed_of_run_ok (returned : (run custody.toSurroundings plan world).1 = .ok summary)
    (uninterrupted : summary.interrupted = false) :
    (performed custody.toSurroundings plan world).1 = .completed := by
  obtain ⟨rfl, unfailed⟩ := performed_of_run_ok returned
  cases ended : (performed custody.toSurroundings plan world).1 with
  | completed => rfl
  | interrupted =>
      rw [(performed_follows custody plan world).interrupted ended] at uninterrupted
      cases uninterrupted
  | failed failure => exact absurd ended (unfailed failure)

/-- Such a run decided all that its inventory calls for. -/
theorem decisions_of_run_ok (returned : (run custody.toSurroundings plan world).1 = .ok summary)
    (uninterrupted : summary.interrupted = false) :
    (performed custody.toSurroundings plan world).2.decisions =
        plan.decisions (custody.held world) ∧
      removed custody plan world = plan.due (plan.decisions (custody.held world)) := by
  have follows := performed_follows custody plan world
  have decisions := follows.completed (completed_of_run_ok returned uninterrupted)
  have carried := follows.carried (performed_of_run_ok returned).2
  rw [decisions] at carried
  exact ⟨decisions, carried⟩

/-- It met valid policies only. -/
theorem valid_of_run_ok (returned : (run custody.toSurroundings plan world).1 = .ok summary)
    (uninterrupted : summary.interrupted = false) :
    ∀ account ∈ (custody.held world).accounts, ValidPolicy (custody.held world) account := by
  have completed := completed_of_run_ok returned uninterrupted
  obtain ⟨kept, answers⟩ := custody.accounts_reads world
  unfold performed scanAccounts at completed
  cases answered : custody.store.accounts world with
  | mk answer next =>
    rw [answered] at kept answers completed
    cases answer with
    | error failure => cases completed
    | ok listed =>
        intro account present
        refine visitAccounts_valid (congrArg Inventory.policies kept) completed account ?_
        rw [mem_ascendingDistinct]
        exact (answers listed rfl account).2 present

end Returned

end HostPruning.Pruning
