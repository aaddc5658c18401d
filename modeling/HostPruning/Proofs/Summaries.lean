import Mathlib.Data.List.Dedup
import HostPruning.Proofs.Coverage
import HostPruning.Proofs.Forecast
import HostPruning.Proofs.Malformed
import HostPruning.Proofs.Survival

/-!
# What a summary says

The summary of a run is all that its caller learns of it. `run_truthful` says what the caller may
conclude: hosts that are counted as deleted are gone, the emitter was asked to take the event of each
of them, and the events on record are those counted as handed over. Where the run was not interrupted,
its counts cover the whole inventory.

The counts of removals go by what a run decided and carried out (`performed_tallied`). The others are
those of the steps that were performed: however it ends, a performance has counted the shares of the
first of its steps (`perform_surveys`), and one that comes to its end the shares of all.
-/

namespace HostPruning.Pruning

open Inventory
open Rehearsal (Recorder)

variable {World : Type} {outside : Outside World} {plan : Plan}

/-! ### Recorded events -/

section Records

variable {record : World → List (HostId × DeleteEvent)}

/-- On record are the events that the emitter took, and nothing else touches the record. -/
structure Outside.Records (outside : Outside World) (record : World → List (HostId × DeleteEvent)) :
    Prop where
  takes : ∀ key event world, (outside.emitter.emit key event world).1 = .ok () →
    record (outside.emitter.emit key event world).2 = record world ++ [(key, event)]
  refuses : ∀ key event world failure, (outside.emitter.emit key event world).1 = .error failure →
    record (outside.emitter.emit key event world).2 = record world
  flushes : ∀ world, record (outside.emitter.flush world).2 = record world
  polls : ∀ world, record (outside.stopRequested world).2 = record world

/-- A recorder keeps a record, whoever stops the run. -/
theorem records_recorder (signal : Nat → Recorder → Bool) (eventTime : Nat → Recorder → Moment) :
    (listening Recorder.emitter signal eventTime).Records fun audience => audience.mail.events where
  takes key event audience taken := by
    dsimp only [listening, Call.onPart, Recorder.emitter] at taken ⊢
    by_cases named : key ∈ audience.mail.refused
    · rw [emit_of_refused named] at taken
      cases taken
    · rw [emit_of_unrefused named]
      rfl
  refuses key event audience failure refused := by
    dsimp only [listening, Call.onPart, Recorder.emitter] at refused ⊢
    by_cases named : key ∈ audience.mail.refused
    · rw [emit_of_refused named]
      rfl
    · rw [emit_of_unrefused named] at refused
      cases refused
  flushes _ := rfl
  polls _ := rfl

/-- Whether the events that a pass counts as handed over are those on record. -/
def Pass.Recorded (record : World → List (HostId × DeleteEvent)) (pass : Pass World) : Prop :=
  (record pass.world).length = pass.summary.eventsEmitted

/-- An event that is handed over is counted and recorded, one that is refused neither. -/
theorem publishRemoval_recorded (records : outside.Records record) (decision : Decision)
    {pass : Pass World} (recorded : pass.Recorded record) :
    (publishRemoval outside.unstocked plan decision pass).2.Recorded record := by
  have takes := records.takes decision.duplicate.id (DeleteEvent.ofDuplicate decision.duplicate
    decision.survivor.id (outside.eventTime pass.world)) pass.world
  have refuses := records.refuses decision.duplicate.id (DeleteEvent.ofDuplicate decision.duplicate
    decision.survivor.id (outside.eventTime pass.world)) pass.world
  unfold publishRemoval
  dsimp only [Outside.unstocked]
  cases answered : outside.emitter.emit decision.duplicate.id (DeleteEvent.ofDuplicate
      decision.duplicate decision.survivor.id (outside.eventTime pass.world)) pass.world with
  | mk answer world =>
      rw [answered] at takes refuses
      cases answer with
      | ok =>
          have grown := congrArg List.length (takes rfl)
          rw [List.length_append, recorded] at grown
          exact grown
      | error failure =>
          have kept : (record world).length = pass.summary.eventsEmitted :=
            (congrArg List.length (refuses failure rfl)).trans recorded
          cases plan.options.emitFailure with
          | «continue» => exact kept
          | abort => exact kept

theorem take_recorded (records : outside.Records record) (step : Step) {pass : Pass World}
    (recorded : pass.Recorded record) : (outside.take plan step pass).2.Recorded record := by
  have polled : (record (outside.stopRequested pass.world).2).length = pass.summary.eventsEmitted :=
    (congrArg List.length (records.polls pass.world)).trans recorded
  have took := take_took outside plan step pass
  generalize outside.take plan step pass = result at took ⊢
  cases took with
  | @counted step world change idle still untallied =>
      have counts := untallied pass.summary
      simp only [Summary.tally, Prod.mk.injEq] at counts
      have unmoved : (record world).length = pass.summary.eventsEmitted := by
        rcases still with rfl | rfl
        · exact recorded
        · exact polled
      exact unmoved.trans counts.2.2.1.symm
  | stopped asked => exact polled
  | @removed decision unasked =>
      rw [Outside.removeDuplicate_unstocked]
      split
      · exact polled
      · exact publishRemoval_recorded records decision polled
  | failed => exact recorded

end Records

/-! ### Refused events -/

/-- Where refused events end a run, a removal that does not fail counts none. -/
theorem removeDuplicate_unrefused (aborts : plan.options.emitFailure = .abort) (decision : Decision)
    (pass : Pass World)
    (unfailed : ∀ failure, (removeDuplicate outside.unstocked plan decision pass).1 ≠ .failed failure) :
    (removeDuplicate outside.unstocked plan decision pass).2.summary.eventsFailed =
      pass.summary.eventsFailed := by
  rw [Outside.removeDuplicate_unstocked] at unfailed ⊢
  unfold publishRemoval at unfailed ⊢
  split
  · rfl
  next real =>
    rw [if_neg real] at unfailed
    dsimp only at unfailed ⊢
    split
    · rfl
    next failure world refused =>
      rw [refused, aborts] at unfailed
      exact absurd rfl (unfailed failure)

theorem take_unrefused (outside : Outside World) (aborts : plan.options.emitFailure = .abort)
    (step : Step) (pass : Pass World)
    (unfailed : ∀ failure, (outside.take plan step pass).1 ≠ .failed failure) :
    (outside.take plan step pass).2.summary.eventsFailed = pass.summary.eventsFailed := by
  have took := take_took outside plan step pass
  generalize outside.take plan step pass = result at took unfailed ⊢
  cases took with
  | counted idle still untallied =>
      have counts := untallied pass.summary
      simp only [Summary.tally, Prod.mk.injEq] at counts
      exact counts.2.2.2
  | stopped asked => rfl
  | removed unasked => exact removeDuplicate_unrefused aborts _ _ unfailed
  | failed => rfl

/-- Where refused events end a run, a performance that does not fail counts none. -/
theorem perform_unrefused (aborts : plan.options.emitFailure = .abort) (steps : List Step)
    (pass : Pass World)
    (unfailed : ∀ failure, (outside.perform plan steps pass).1 ≠ .failed failure) :
    (outside.perform plan steps pass).2.summary.eventsFailed = pass.summary.eventsFailed := by
  induction steps generalizing pass with
  | nil => rfl
  | cons step rest inductionHypothesis =>
      have here := take_unrefused outside aborts step pass
      by_cases completed : (outside.take plan step pass).1 = .completed
      · rw [Outside.perform_of_completed rest completed] at unfailed ⊢
        rw [inductionHypothesis _ unfailed, here (by simp [completed])]
      · rw [Outside.perform_of_incomplete rest completed] at unfailed ⊢
        exact here unfailed

/-! ### Surveys -/

/-- The counts that removals have no part in. -/
def Summary.survey (summary : Summary) : Summary where
  accountsProcessed := summary.accountsProcessed
  hostsScanned := summary.hostsScanned
  malformedSkipped := summary.malformedSkipped
  culledSkipped := summary.culledSkipped

theorem removeDuplicate_survey (around : Surroundings World) (decision : Decision) (pass : Pass World) :
    (removeDuplicate around plan decision pass).2.summary.survey = pass.summary.survey := by
  unfold removeDuplicate publishRemoval
  dsimp only
  repeat' split
  all_goals rfl

/-- A step adds its share or ends the performance. -/
theorem take_surveys (outside : Outside World) (plan : Plan) (step : Step) (pass : Pass World) :
    (outside.take plan step pass).2.summary.survey = pass.summary.survey.absorb step.share ∨
      (outside.take plan step pass).1 ≠ .completed ∧
        (outside.take plan step pass).2.summary.survey = pass.summary.survey := by
  have polled : ∀ {further : Pass World → Ending × Pass World},
      (∀ world, (further (pass.inWorld world)).2.summary.survey =
        pass.summary.survey.absorb step.share) →
      (outside.unlessStopped further pass).2.summary.survey = pass.summary.survey.absorb step.share ∨
        (outside.unlessStopped further pass).1 ≠ .completed ∧
          (outside.unlessStopped further pass).2.summary.survey = pass.summary.survey := by
    intro further goesOn
    unfold Outside.unlessStopped
    split
    · exact Or.inr ⟨by simp, rfl⟩
    · exact Or.inl (goesOn _)
  unfold Outside.take
  cases step with
  | enter => exact polled fun _ => rfl
  | scan => exact Or.inl rfl
  | malformed => exact Or.inl rfl
  | culled count => exact Or.inl rfl
  | remove decision => exact polled fun world => removeDuplicate_survey _ decision (pass.inWorld world)
  | fail failure => exact Or.inr ⟨by simp, rfl⟩

/-- A performance counts the shares of the first of its steps, and of all of them when it comes to its
end. -/
theorem perform_surveys (outside : Outside World) (plan : Plan) (steps : List Step) (pass : Pass World) :
    ∃ done, done <+: steps ∧
      (outside.perform plan steps pass).2.summary.survey =
        (done.map Step.share).foldl Summary.absorb pass.summary.survey ∧
      ((outside.perform plan steps pass).1 = .completed → done = steps) := by
  simp only [List.foldl_map]
  exact Outside.perform_effects (fun pass => pass.summary.survey)
    (fun survey step => survey.absorb step.share) (take_surveys outside plan) steps pass

/-- The survey of a performance from the start on. -/
theorem survey_of_blank {steps : List Step} {pass : Pass World} {world : World}
    (added : pass.summary.survey =
      (steps.map Step.share).foldl Summary.absorb (Pass.blank plan world).summary.survey) :
    pass.summary.accountsProcessed = shareOf Summary.accountsProcessed steps ∧
      pass.summary.hostsScanned = shareOf Summary.hostsScanned steps ∧
      pass.summary.malformedSkipped = shareOf Summary.malformedSkipped steps ∧
      pass.summary.culledSkipped = shareOf Summary.culledSkipped steps := by
  have total : pass.summary.survey = Summary.total false (steps.map Step.share) :=
    added.trans (Summary.foldl_absorb_start false _)
  exact ⟨congrArg Summary.accountsProcessed total, congrArg Summary.hostsScanned total,
    congrArg Summary.malformedSkipped total, congrArg Summary.culledSkipped total⟩

/-- No step of a performance that comes to its end fails. -/
theorem smooth_of_completed {steps : List Step} {pass : Pass World}
    (completed : (outside.perform plan steps pass).1 = .completed) : Smooth steps := by
  induction steps generalizing pass with
  | nil => exact fun _ => List.not_mem_nil
  | cons step rest inductionHypothesis =>
      by_cases taken : (outside.take plan step pass).1 = .completed
      · rw [Outside.perform_of_completed rest taken] at completed
        intro failure among
        rcases List.mem_cons.1 among with rfl | later
        · cases taken
        · exact inductionHypothesis completed failure later
      · rw [Outside.perform_of_incomplete rest taken] at completed
        exact absurd completed taken

/-! ### Hosts -/

/-- Every removal takes away one host. -/
theorem Outranked.length_after {before : Inventory} {removals : List Decision}
    (outranked : Outranked before removals) :
    (before.after removals).hosts.length + removals.length = before.hosts.length := by
  have gone : ((before.hosts.filter fun host => host.id ∈ duplicateIds removals).map Host.id).Perm
      (duplicateIds removals) := by
    refine (List.perm_ext_iff_of_nodup ?_ outranked.once).2 fun id => ?_
    · have distinct : DistinctIds (before.hosts.filter fun host => host.id ∈ duplicateIds removals) :=
        before.distinctIds.sublist List.filter_sublist
      exact List.pairwise_map.2 distinct
    · simp only [List.mem_map, List.mem_filter, decide_eq_true_eq]
      constructor
      · rintro ⟨host, ⟨-, named⟩, rfl⟩
        exact named
      · intro named
        obtain ⟨removal, among, rfl⟩ := List.mem_map.1 named
        exact ⟨removal.duplicate, ⟨(outranked.stored among).1, named⟩, rfl⟩
  have counted : (before.hosts.filter fun host => host.id ∈ duplicateIds removals).length =
      removals.length := by
    rw [← List.length_map Host.id, gone.length_eq]
    exact List.length_map _
  have parts := List.length_eq_length_filter_add (l := before.hosts)
    fun host => decide (host.id ∈ duplicateIds removals)
  simp only [← decide_not] at parts
  rw [← counted, Nat.add_comm]
  exact parts.symm

/-! ### Runs -/

section Runs

variable {inventory : Inventory} {world : World} {summary : Summary}

/-- What the counts of a run say, interrupted or not, given what it met and what it left. -/
structure Truthful (plan : Plan) (before after : Inventory) (summary : Summary) : Prop where
  /-- The hosts that are gone are those counted as deleted. -/
  deleted : after.hosts.length + summary.hostsDeleted = before.hosts.length
  /-- For each of them the emitter was asked once. -/
  events : summary.eventsEmitted + summary.eventsFailed = summary.hostsDeleted
  found : plan.options.dryRun = false → summary.duplicatesFound = summary.hostsDeleted
  dry : plan.options.dryRun = true →
    summary.hostsDeleted = 0 ∧ summary.eventsEmitted = 0 ∧ summary.eventsFailed = 0
  unrefused : plan.options.emitFailure = .abort → summary.eventsFailed = 0
  included : plan.options.excludeCulled = false → summary.culledSkipped = 0

/-- What they say besides when the run went over all accounts, given also the duplicates it found. -/
structure Exhaustive (plan : Plan) (before after : Inventory) (found : List Decision)
    (summary : Summary) : Prop where
  accounts : summary.accountsProcessed = (before.hosts.map Host.account).dedup.length
  scanned : after.hosts.length ≤ summary.hostsScanned ∧ summary.hostsScanned ≤ before.hosts.length
  dry : plan.options.dryRun = true → summary.hostsScanned = before.hosts.length
  /-- Malformed hosts are skipped unless they are left out as duplicates when their turn comes. -/
  malformed : summary.malformedSkipped =
    (before.hosts.filter fun host => malformed host && ! foundBefore found host).length

theorem truthful_of_run_ok
    (returned : (run outside.custody.toSurroundings plan ⟨inventory, world⟩).1 = .ok summary) :
    Truthful plan inventory (run outside.custody.toSurroundings plan ⟨inventory, world⟩).2.inventory
      summary := by
  obtain ⟨left, -⟩ := inventory_run outside plan inventory world
  obtain ⟨rfl, unfailed⟩ := performed_of_run_ok returned
  obtain ⟨found, deleted, events⟩ :=
    performed_tallied outside.custody.toSurroundings plan ⟨inventory, world⟩
  have carried := (performed_follows outside.custody plan ⟨inventory, world⟩).carried unfailed
  have gone := (outranked_of_ahead (prefix_removed outside.custody plan ⟨inventory, world⟩)).length_after
  obtain ⟨endings, -, counts, -⟩ := performed_performs outside plan inventory world
  constructor
  case deleted =>
    rw [left, deleted]
    exact gone
  case events => exact events.trans deleted.symm
  case found =>
    intro real
    rw [due_of_real (by simp [real])] at carried
    rw [found, deleted, carried]
  case dry =>
    intro dry
    have nothing : (performed outside.custody.toSurroundings plan ⟨inventory, world⟩).2.removals = [] :=
      (performed_dry dry _).2
    rw [nothing] at deleted events
    exact ⟨deleted, Nat.add_eq_zero_iff.1 events⟩
  case unrefused =>
    intro aborts
    rw [endings] at unfailed
    rw [counts]
    exact perform_unrefused aborts _ _ unfailed
  case included =>
    intro included
    obtain ⟨done, ahead, added, -⟩ := perform_surveys outside plan
      (runSteps plan { inventory with pageSizes := [] }) (Pass.blank plan world)
    rw [counts, (survey_of_blank added).2.2.2]
    exact shareOf_eq_zero fun step among => culledSkipped_runSteps included (ahead.subset among)

/-- What is on record after a run are the events counted as handed over. -/
theorem recorded_of_run_ok {record : World → List (HostId × DeleteEvent)}
    (records : outside.Records record) (fresh : record world = [])
    (returned : (run outside.custody.toSurroundings plan ⟨inventory, world⟩).1 = .ok summary) :
    (record (run outside.custody.toSurroundings plan ⟨inventory, world⟩).2.world).length =
      summary.eventsEmitted := by
  obtain ⟨rfl, -⟩ := performed_of_run_ok returned
  obtain ⟨-, -, counts, worlds⟩ := performed_performs outside plan inventory world
  have recorded : (outside.perform plan (runSteps plan { inventory with pageSizes := [] })
      (Pass.blank plan world)).2.Recorded record :=
    perform_keeps (fun step _ holds => take_recorded records step holds) _
      (congrArg List.length fresh)
  have flushed : record (run outside.custody.toSurroundings plan ⟨inventory, world⟩).2.world =
      record (performed outside.custody.toSurroundings plan ⟨inventory, world⟩).2.world.world := by
    rw [run_shelved, finish_world]
    exact records.flushes _
  rw [flushed, worlds, counts]
  exact recorded

/-- The accounts that own a host are as many as the hosts name. -/
theorem length_accounts (inventory : Inventory) :
    inventory.accounts.length = (inventory.hosts.map Host.account).dedup.length := by
  refine List.Perm.length_eq ((List.perm_ext_iff_of_nodup (nodup_accounts inventory)
    (List.nodup_dedup _)).2 fun account => ?_)
  rw [List.mem_dedup, Inventory.accounts, mem_ascendingDistinct]

theorem exhaustive_of_run_ok
    (returned : (run outside.custody.toSurroundings plan ⟨inventory, world⟩).1 = .ok summary)
    (uninterrupted : summary.interrupted = false) :
    Exhaustive plan inventory (run outside.custody.toSurroundings plan ⟨inventory, world⟩).2.inventory
      (if plan.options.dryRun then
        (performed outside.custody.toSurroundings plan ⟨inventory, world⟩).2.decisions
      else removed outside.custody plan ⟨inventory, world⟩) summary := by
  have completed := completed_of_run_ok returned uninterrupted
  obtain ⟨decisions, carried⟩ := decisions_of_run_ok returned uninterrupted
  obtain ⟨rfl, -⟩ := performed_of_run_ok returned
  obtain ⟨endings, -, counts, -⟩ := performed_performs outside plan inventory world
  obtain ⟨left, -⟩ := inventory_run outside plan inventory world
  rw [endings] at completed
  obtain ⟨done, -, added, whole⟩ := perform_surveys outside plan
    (runSteps plan { inventory with pageSizes := [] }) (Pass.blank plan world)
  obtain rfl := whole completed
  obtain ⟨accounts, scanned, malformed, -⟩ := survey_of_blank added
  have smooth := smooth_of_completed completed
  obtain ⟨atLeast, atMost⟩ := hostsScanned_runSteps smooth
  rw [carried] at left
  constructor
  case accounts =>
    rw [counts, accounts, accountsProcessed_runSteps]
    exact length_accounts _
  case scanned =>
    rw [counts, scanned, left]
    exact ⟨atLeast, atMost⟩
  case dry =>
    intro dry
    rw [due_of_dry dry, after_nil] at atLeast
    rw [counts, scanned]
    exact Nat.le_antisymm atMost atLeast
  case malformed =>
    have found : (if plan.options.dryRun then
        (performed outside.custody.toSurroundings plan ⟨inventory, world⟩).2.decisions
        else removed outside.custody plan ⟨inventory, world⟩) =
          plan.decisions { inventory with pageSizes := [] } := by
      split
      · exact decisions
      next real =>
        rw [carried, due_of_real real]
        rfl
    rw [counts, malformed, malformedSkipped_runSteps smooth, found]

/-- When a run over a store in memory returns, its summary tells the truth, whoever stops it and
whatever the emitter: hosts counted as deleted are gone, and the events on record are those counted as
handed over. Where it was not interrupted, it went over all accounts. -/
theorem run_truthful
    (returned : (run outside.custody.toSurroundings plan ⟨inventory, world⟩).1 = .ok summary) :
    let after := (run outside.custody.toSurroundings plan ⟨inventory, world⟩).2
    let found := if plan.options.dryRun then
        (performed outside.custody.toSurroundings plan ⟨inventory, world⟩).2.decisions
      else removed outside.custody plan ⟨inventory, world⟩
    Truthful plan inventory after.inventory summary ∧
      (∀ record, outside.Records record → record world = [] →
        (record after.world).length = summary.eventsEmitted) ∧
      (summary.interrupted = false → Exhaustive plan inventory after.inventory found summary) :=
  ⟨truthful_of_run_ok returned,
    fun _ records fresh => recorded_of_run_ok records fresh returned,
    exhaustive_of_run_ok returned⟩

end Runs

/-- A run over three hosts of one identity that goes on when an event is refused. Two are removed, and
one of their events is refused. Of the two that are malformed the first is skipped, and the other is
removed before its turn. -/
theorem marked_hosts_told :
    let outside := unstopped fun _ _ => .ofUnixSeconds 0
    let plan : Plan :=
      { Rehearsal.calmPlan 1 with options := { Options.standard with emitFailure := .continue } }
    let world : Audience Recorder := .fresh [Rehearsal.smallId 3]
    let summary : Summary :=
      { accountsProcessed := 1, hostsScanned := 3, duplicatesFound := 2, hostsDeleted := 2
        eventsEmitted := 1, eventsFailed := 1, malformedSkipped := 1 }
    let after := (run outside.custody.toSurroundings plan ⟨markedHosts, world⟩).2
    (run outside.custody.toSurroundings plan ⟨markedHosts, world⟩).1 = .ok summary ∧
      Truthful plan markedHosts after.inventory summary ∧ after.world.mail.events.length = 1 ∧
      Exhaustive plan markedHosts after.inventory
        (removed outside.custody plan ⟨markedHosts, world⟩) summary := by
  intro outside plan world summary after
  have returned : (run outside.custody.toSurroundings plan ⟨markedHosts, world⟩).1 = .ok summary := by
    rfl
  obtain ⟨truthful, recorded, exhaustive⟩ := run_truthful returned
  have records : outside.Records fun audience => audience.mail.events :=
    records_recorder (fun _ _ => false) fun _ _ => .ofUnixSeconds 0
  exact ⟨returned, truthful, recorded _ records rfl, exhaustive rfl⟩

end HostPruning.Pruning
