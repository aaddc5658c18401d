import HostPruning.Proofs.Recording

/-!
# The size of pages

An account is read page by page, and removals between two pages change what the later one
holds: with large pages a run takes up hosts that it has removed by then, with small ones it
never sees them again. Both skip them, so of all a recorded run amounts to only the count of
hosts taken up depends on the size of pages (`run_paged_alike`).
-/

namespace HostPruning.Pruning

open Rehearsal

/-- The counts of a run, leaving aside how many hosts were taken up. -/
def Summary.unscanned (summary : Summary) : Summary := { summary with hostsScanned := 0 }

/-- A plan with pages of another size and another budget of pages. -/
def Plan.paged (plan : Plan) (chunkSize pageBudget : Nat) : Plan :=
  { plan with options := { plan.options with chunkSize := chunkSize }, pageBudget := pageBudget }

theorem outcome_unscanned (ending : Ending) (summary : Summary) :
    (ending.outcome summary).map Summary.unscanned = ending.outcome summary.unscanned := by
  cases ending <;> rfl

section Pages

variable {inventory : Inventory} {plan : Plan} {firstChunk secondChunk firstBudget secondBudget : Nat}

/-- Up to its flush, a recorded run is the same in pages of any size. -/
theorem performed_paged_alike (signal : Nat → Nat → Bool) (firstTime secondTime : Nat → Recorder → Moment)
    (first : (plan.paged firstChunk firstBudget).Roomy inventory)
    (second : (plan.paged secondChunk secondBudget).Roomy inventory) (audience : Audience Recorder) :
    (performed (recording signal firstTime).custody.toSurroundings (plan.paged firstChunk firstBudget)
        ⟨inventory, audience⟩).map id (Progress.observed (Audience.behind [] 0 ∘ Shelf.world)) =
      (performed (recording signal secondTime).custody.toSurroundings
        (plan.paged secondChunk secondBudget) ⟨inventory, audience⟩).map id
          (Progress.observed (Audience.behind [] 0 ∘ Shelf.world)) := by
  have fits : ∀ eventTime, (Frame.ofView (Audience.behind [] 0)).Fits (recording signal eventTime)
      (recordingUndated signal) := fun eventTime => recording_behind eventTime [] 0 (by simp)
  rw [performed_observed (fits firstTime) first, performed_observed (fits secondTime) second]
  have agendas : ∀ stored, (plan.paged firstChunk firstBudget).agenda stored =
      (plan.paged secondChunk secondBudget).agenda stored := agenda_congr ⟨rfl, rfl⟩
  have performances : ∀ steps pass,
      (recordingUndated signal).perform (plan.paged firstChunk firstBudget) steps pass =
        (recordingUndated signal).perform (plan.paged secondChunk secondBudget) steps pass :=
    Outside.perform_congr rfl rfl
  rw [agendas, performances]
  rfl

/-- Whatever the size of its pages, a recorded run over a store in memory returns the same result
but for the count of hosts taken up, removes the same hosts in favour of the same survivors, has
the same events recorded but for their moments, and leaves the same behind. -/
theorem run_paged_alike (signal : Nat → Nat → Bool) (firstTime secondTime : Nat → Recorder → Moment)
    (first : (plan.paged firstChunk firstBudget).Roomy inventory)
    (second : (plan.paged secondChunk secondBudget).Roomy inventory) (audience : Audience Recorder) :
    let shelf : Shelf (Audience Recorder) := ⟨inventory, audience⟩
    let firstCustody := (recording signal firstTime).custody
    let secondCustody := (recording signal secondTime).custody
    let firstPlan := plan.paged firstChunk firstBudget
    let secondPlan := plan.paged secondChunk secondBudget
    let firstRun := run firstCustody.toSurroundings firstPlan shelf
    let secondRun := run secondCustody.toSurroundings secondPlan shelf
    firstRun.1.map Summary.unscanned = secondRun.1.map Summary.unscanned ∧
      removed firstCustody firstPlan shelf = removed secondCustody secondPlan shelf ∧
      firstRun.2.world.mail.heard = secondRun.2.world.mail.heard ∧
      firstRun.2.inventory.hosts = secondRun.2.inventory.hosts ∧
      firstRun.2.inventory.policies = secondRun.2.inventory.policies := by
  intro shelf firstCustody secondCustody firstPlan secondPlan firstRun secondRun
  have alike := performed_paged_alike signal firstTime secondTime first second audience
  have component {Part : Type} (part : Ending × Progress (Audience Recorder) → Part) :=
    congrArg part alike
  have endings := component Prod.fst
  have summaries := component fun result => result.2.summary
  have removals : removed firstCustody firstPlan shelf = removed secondCustody secondPlan shelf :=
    component fun result => result.2.removals
  have left : firstCustody.held firstRun.2 = secondCustody.held secondRun.2 := by
    rw [held_run, held_run, removals]
    rfl
  have hosts := congrArg Inventory.hosts left
  have policies := congrArg Inventory.policies left
  refine ⟨?_, removals, ?_, hosts, policies⟩
  · dsimp only [firstRun, secondRun]
    rw [run_shelved, run_shelved, finish_recording, finish_recording, outcome_unscanned,
      outcome_unscanned]
    exact congr (congrArg _ summaries) endings
  · dsimp only [firstRun, secondRun]
    rw [run_shelved, run_shelved, finish_recording, finish_recording]
    exact component fun result => result.2.world.mail.events

/-- Three hosts in pages of one and in one page. -/
theorem three_hosts_paged_alike :
    ((calmPlan 1).paged 1 4).Roomy threeHosts ∧ ((calmPlan 1).paged 1000 4).Roomy threeHosts ∧
      removed (recordingUndated fun _ _ => false).custody ((calmPlan 1).paged 1 4)
          ⟨threeHosts, ⟨.start [] none, 0⟩⟩ =
        removed (recordingUndated fun _ _ => false).custody ((calmPlan 1).paged 1000 4)
          ⟨threeHosts, ⟨.start [] none, 0⟩⟩ := by
  have single : ((calmPlan 1).paged 1 4).Roomy threeHosts := ⟨by decide, by decide⟩
  have whole : ((calmPlan 1).paged 1000 4).Roomy threeHosts := ⟨by decide, by decide⟩
  exact ⟨single, whole, (run_paged_alike _ _ _ single whole _).2.1⟩

-- The hosts taken up are fewer in small pages, which no longer hold those removed before.
example :
    ([1, 1000].map fun chunkSize =>
      (run (recordingUndated fun _ _ => false).custody.toSurroundings ((calmPlan 1).paged chunkSize 4)
        ⟨threeHosts, ⟨.start [] none, 0⟩⟩).1.toOption.map Summary.hostsScanned) = [some 2, some 3] := by
  decide

end Pages

end HostPruning.Pruning
