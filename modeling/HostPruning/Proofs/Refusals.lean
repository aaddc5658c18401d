import HostPruning.Proofs.Attendance

/-!
# Refused events

A host is removed before its event is handed over, so a refused event finds its host gone. Where a
run goes on behind refused events, refusing some hosts' events takes nothing from the removals: the
run removes what the run without refusals removes and counts each event as handed over or refused.
Where refused events abort a run, the first refused one ends it: its host is gone and is the only
removed one without an event (`run_refused`).
-/

namespace HostPruning.Pruning

open Rehearsal

variable {plan : Plan} {inventory : Inventory}

/-- Refusals that meet no removal take no event away. -/
theorem deliveries_of_unnamed {refused : List HostId} {removals : List Decision}
    (unnamed : ∀ decision ∈ removals, decision.duplicate.id ∉ refused) :
    deliveries refused removals = deliveries [] removals := by
  have all : (removals.filter fun decision => ! refused.contains decision.duplicate.id) = removals :=
    List.filter_eq_self.2 fun decision among => by simpa using unnamed decision among
  have none : (removals.filter fun decision => ! ([] : List HostId).contains decision.duplicate.id) =
      removals := List.filter_eq_self.2 fun _ _ => rfl
  rw [deliveries, deliveries, all, none]

/-- The event of the last removal is the only one that is missing when it alone is refused. -/
theorem deliveries_of_last {refused : List HostId} {before : List Decision} {decision : Decision}
    (unnamed : ∀ earlier ∈ before, earlier.duplicate.id ∉ refused)
    (named : decision.duplicate.id ∈ refused) :
    deliveries refused (before ++ [decision]) = deliveries [] before := by
  have last : deliveries refused [decision] = [] := by simp [deliveries, named]
  rw [deliveries_append, last, List.append_nil, deliveries_of_unnamed unnamed]

/-- What the run without refusals removes is what is expected. -/
theorem removed_unrefused (calmTime : Nat → Recorder → Moment) (roomy : plan.Roomy inventory)
    (valid : ValidPolicies inventory) (real : plan.options.dryRun = false) :
    removed (unstopped calmTime).custody plan ⟨inventory, .fresh []⟩ = plan.expected inventory := by
  have harmless : Harmless plan [] (plan.expected inventory) := Or.inr fun _ _ => List.not_mem_nil
  exact (removed_expected (unstopped calmTime) real inventory _).2
    (performed_completed calmTime roomy valid real harmless)

/-- A run behind whose refused events nothing is lost comes to its end with all removals. -/
theorem run_harmless (eventTime : Nat → Recorder → Moment) (roomy : plan.Roomy inventory)
    (valid : ValidPolicies inventory) (real : plan.options.dryRun = false) {refused : List HostId}
    (harmless : Harmless plan refused (plan.expected inventory)) :
    removed (unstopped eventTime).custody plan ⟨inventory, .fresh refused⟩ = plan.expected inventory ∧
      ∃ summary, (run (unstopped eventTime).custody.toSurroundings plan
        ⟨inventory, .fresh refused⟩).1 = .ok summary := by
  have completed := performed_completed eventTime roomy valid real harmless
  have unfailed := performed_unfailed (fun _ _ => false) eventTime roomy valid real harmless none
  exact ⟨(removed_expected (unstopped eventTime) real inventory _).2 completed,
    _, run_of_unfailed (fun _ _ => false) eventTime plan _ unfailed⟩

/-- A run that a refused event aborts fails with the refusal, behind the removal it was about. -/
theorem run_aborted (eventTime : Nat → Recorder → Moment) (roomy : plan.Roomy inventory)
    (valid : ValidPolicies inventory) (real : plan.options.dryRun = false)
    (aborts : plan.options.emitFailure = .abort) {refused : List HostId}
    {before behind : List Decision} {decision : Decision}
    (split : plan.expected inventory = before ++ decision :: behind)
    (unnamed : ∀ earlier ∈ before, earlier.duplicate.id ∉ refused)
    (named : decision.duplicate.id ∈ refused) :
    (run (unstopped eventTime).custody.toSurroundings plan ⟨inventory, .fresh refused⟩).1 =
        .error (.emission decision.duplicate.id (.reported Recorder.refusal)) ∧
      removed (unstopped eventTime).custody plan ⟨inventory, .fresh refused⟩ = before ++ [decision] := by
  have smooth : Smooth (runSteps plan { inventory with pageSizes := [] }) :=
    runSteps_smooth ⟨roomy.positive, roomy.enough⟩ valid
  obtain ⟨endings, removals, -, -⟩ :=
    performed_performs (unstopped eventTime) plan inventory (.fresh refused)
  obtain ⟨failed, carried⟩ : _ = Ending.failed _ ∧ _ :=
    perform_aborts real aborts smooth (fun _ _ => rfl) split unnamed named
      (.blank plan refused none 0)
  refine ⟨?_, removals.trans carried⟩
  rw [run_shelved, endings.trans failed]
  rfl

/-- Refused events have the documented effect. Let `whole` be what a run that nobody stops and whose
events are all taken removes from an inventory in memory with valid policies, and let the events of
some hosts be refused. Where refused events are counted, the run returns, removes the same, and has
recorded the events of the other hosts in their order. Where they abort the run, the same holds if
none of the removed hosts is refused; otherwise the run fails with the refusal of the first refused
one, which is the last host it removed and the only one of them without an event. What is stored
afterwards is what was stored without the removed hosts. -/
theorem run_refused (eventTime calmTime : Nat → Recorder → Moment) (roomy : plan.Roomy inventory)
    (valid : ValidPolicies inventory) (real : plan.options.dryRun = false) (refused : List HostId) :
    let whole := removed (unstopped calmTime).custody plan ⟨inventory, .fresh []⟩
    let shelf : Shelf (Audience Recorder) := ⟨inventory, .fresh refused⟩
    let removals := removed (unstopped eventTime).custody plan shelf
    let after := run (unstopped eventTime).custody.toSurroundings plan shelf
    (after.2.inventory.hosts = inventory.hosts.filter (fun host => host.id ∉ duplicateIds removals) ∧
        after.2.inventory.policies = inventory.policies) ∧
      (plan.options.emitFailure = .continue →
        removals = whole ∧ after.2.world.mail.heard = deliveries refused whole ∧
          ∃ summary, after.1 = .ok summary ∧
            summary.eventsFailed =
              (whole.filter fun decision => refused.contains decision.duplicate.id).length ∧
            summary.eventsEmitted =
              (whole.filter fun decision => ! refused.contains decision.duplicate.id).length) ∧
      (plan.options.emitFailure = .abort →
        ((∀ decision ∈ whole, decision.duplicate.id ∉ refused) →
          removals = whole ∧ after.2.world.mail.heard = deliveries [] whole ∧
            ∃ summary, after.1 = .ok summary ∧ summary.eventsFailed = 0 ∧
              summary.eventsEmitted = whole.length) ∧
        ∀ before decision behind, whole = before ++ decision :: behind →
          (∀ earlier ∈ before, earlier.duplicate.id ∉ refused) →
            decision.duplicate.id ∈ refused →
              after.1 = .error (.emission decision.duplicate.id (.reported Recorder.refusal)) ∧
                removals = before ++ [decision] ∧
                after.2.world.mail.heard = deliveries [] before) := by
  intro whole shelf removals after
  have expected : whole = plan.expected inventory := removed_unrefused calmTime roomy valid real
  obtain ⟨heard, hosts, policies, counts⟩ :=
    run_attending (fun _ _ => false) eventTime plan inventory refused none
  refine ⟨⟨hosts, policies⟩, fun continues => ?_, fun aborts => ⟨fun unnamed => ?_, ?_⟩⟩
  · obtain ⟨removedAll, summary, returned⟩ := run_harmless eventTime roomy valid real
      (Or.inl continues : Harmless plan refused (plan.expected inventory))
    have all : removals = whole := removedAll.trans expected.symm
    obtain ⟨emitted, failed⟩ := counts summary returned
    rw [← all]
    exact ⟨rfl, heard, summary, returned, failed, emitted⟩
  · have harmless : Harmless plan refused (plan.expected inventory) := Or.inr (expected ▸ unnamed)
    obtain ⟨removedAll, summary, returned⟩ := run_harmless eventTime roomy valid real harmless
    have all : removals = whole := removedAll.trans expected.symm
    obtain ⟨emitted, failed⟩ := counts summary returned
    rw [← all] at unnamed ⊢
    refine ⟨rfl, heard.trans (deliveries_of_unnamed unnamed), summary, returned, ?_, ?_⟩
    · rw [failed, List.length_eq_zero_iff, List.filter_eq_nil_iff]
      intro decision among
      simpa using unnamed decision among
    · have every : (removals.filter fun decision => ! refused.contains decision.duplicate.id) =
          removals := List.filter_eq_self.2 fun decision among => by simpa using unnamed decision among
      exact emitted.trans (congrArg List.length every)
  · intro before decision behind split unnamed named
    rw [expected] at split
    obtain ⟨failed, cut⟩ := run_aborted eventTime roomy valid real aborts split unnamed named
    refine ⟨failed, cut, heard.trans ?_⟩
    rw [← deliveries_of_last unnamed named]
    exact congrArg (deliveries refused) cut

/-- Of three hosts two are removed; the event of the second one is refused and aborts the run. -/
theorem three_hosts_refused :
    let shelf : Shelf (Audience Recorder) := ⟨threeHosts, .fresh [⟨1, by decide⟩]⟩
    let around := (unstopped fun _ _ => .ofUnixSeconds 0).custody.toSurroundings
    (calmPlan 1).Roomy threeHosts ∧ ValidPolicies threeHosts ∧
      (calmPlan 1).options.dryRun = false ∧
      (run around (calmPlan 1) shelf).1 =
        .error (.emission ⟨1, by decide⟩ (.reported Recorder.refusal)) ∧
      ((run around (calmPlan 1) shelf).2.world.mail.heard.map Prod.fst) = [⟨2, by decide⟩] := by
  intro shelf around
  have roomy : (calmPlan 1).Roomy threeHosts := ⟨by decide, by decide⟩
  have valid : ValidPolicies threeHosts := by
    intro account _ policy stored
    cases stored
  obtain ⟨-, -, aborted⟩ := run_refused (fun _ _ => .ofUnixSeconds 0) (fun _ _ => .ofUnixSeconds 0)
    roomy valid rfl [⟨1, by decide⟩]
  obtain ⟨-, cut⟩ := aborted rfl
  obtain ⟨first, second, whole, firstId, secondId⟩ : ∃ first second : Decision,
      removed (unstopped fun _ _ => .ofUnixSeconds 0).custody (calmPlan 1) ⟨threeHosts, .fresh []⟩ =
        [first] ++ second :: [] ∧
      first.duplicate.id = ⟨2, by decide⟩ ∧ second.duplicate.id = ⟨1, by decide⟩ :=
    ⟨_, _, rfl, by decide, by decide⟩
  obtain ⟨failed, -, heard⟩ := cut [first] second [] whole (by simp [firstId]) (by simp [secondId])
  rw [secondId] at failed
  refine ⟨roomy, valid, rfl, failed, ?_⟩
  dsimp only [shelf, around]
  rw [heard]
  simp [deliveries, firstId]

end HostPruning.Pruning
