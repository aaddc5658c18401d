import HostPruning.Proofs.Halting
import HostPruning.Proofs.Refusals

/-!
# Stopped runs

A stop cuts a run at a removal. Whatever the stop signal goes by, what a stopped run removes from an
inventory in memory is the beginning of what the run that nobody stops removes, and the recorder
holds the events of just these hosts. The run returns, and says that it was interrupted exactly when
a poll was answered with a stop (`run_stopped`).

A recorder that raises its flag at a number of events is one such signal. It is looked at before
each removal, so there are never more events than the flag waits for (`Flagged`), and a stopped run
has just as many.
-/

namespace HostPruning.Pruning

open Rehearsal

section Performing

variable {signal : Nat → Recorder → Bool} {eventTime : Nat → Recorder → Moment} {plan : Plan}

/-- A performance that is interrupted ends with a recorder at which the signal is raised. -/
theorem perform_interrupted (steps : List Step) {pass : Pass (Audience Recorder)}
    (interrupted : ((listening Recorder.emitter signal eventTime).perform plan steps pass).1 =
      .interrupted) :
    ∃ polls, signal polls
      ((listening Recorder.emitter signal eventTime).perform plan steps pass).2.world.mail = true := by
  induction steps generalizing pass with
  | nil => simp [Outside.perform] at interrupted
  | cons step rest inductionHypothesis =>
      have took := take_took (listening Recorder.emitter signal eventTime) plan step pass
      unfold Outside.perform at interrupted ⊢
      generalize (listening Recorder.emitter signal eventTime).take plan step pass = result
        at took interrupted ⊢
      cases took with
      | counted idle still untallied => exact inductionHypothesis interrupted
      | stopped asked => exact ⟨pass.world.polls, asked⟩
      | failed => simp at interrupted
      | @removed decision unasked =>
          have goesOn := removeDuplicate_uninterrupted
            (listening Recorder.emitter signal eventTime).unstocked plan decision
            (pass.inWorld ((listening Recorder.emitter signal eventTime).stopRequested pass.world).2)
          generalize removeDuplicate (listening Recorder.emitter signal eventTime).unstocked plan decision _ =
            removal at goesOn interrupted ⊢
          cases removal with
          | mk ending after =>
              cases ending with
              | completed => exact inductionHypothesis interrupted
              | interrupted => exact absurd rfl goesOn
              | failed failure => simp at interrupted

/-! ### A flag raised at a number of events -/

/-- A recorder that raises its flag at a number of events and does not hold more. -/
structure Flagged (limit : Nat) (recorder : Recorder) : Prop where
  waiting : recorder.stopAfter = some limit
  raised : recorder.stopRaised = true ↔ limit ≤ recorder.events.length
  within : recorder.events.length ≤ limit

theorem Flagged.start {limit : Nat} (positive : 0 < limit) (refused : List HostId) :
    Flagged limit (.start refused (some limit)) where
  waiting := rfl
  raised := by
    simp [Recorder.start]
    omega
  within := by simp [Recorder.start]

/-- An event taken while the flag is down fills one place. -/
theorem Flagged.emit {limit : Nat} {recorder : Recorder} (flagged : Flagged limit recorder)
    (down : recorder.stopRaised = false) (key : HostId) (event : DeleteEvent) :
    Flagged limit (Recorder.emit key event recorder).2 := by
  obtain ⟨waiting, raised, within⟩ := flagged
  have room : recorder.events.length < limit := by
    rw [down] at raised
    simpa using raised
  unfold Recorder.emit
  split
  · exact ⟨waiting, raised, within⟩
  · refine ⟨waiting, ?_, ?_⟩
    · simp [Recorder.keep, Recorder.reached, waiting, down]
    · simp [Recorder.keep]
      omega

/-- A recorder whose own flag is the stop signal. -/
def selfStopping (eventTime : Nat → Recorder → Moment) : Outside (Audience Recorder) :=
  listening Recorder.emitter (fun _ recorder => recorder.stopRaised) eventTime

/-- The flag is looked at before each removal, so a real performance never takes an event too
many. -/
theorem perform_flagged {limit : Nat} (real : plan.options.dryRun = false) (steps : List Step)
    {pass : Pass (Audience Recorder)} (flagged : Flagged limit pass.world.mail) :
    Flagged limit ((selfStopping eventTime).perform plan steps pass).2.world.mail := by
  refine perform_keeps (motive := fun pass : Pass (Audience Recorder) => Flagged limit pass.world.mail) ?_ steps flagged
  intro step pass flagged
  have took := take_took (selfStopping eventTime) plan step pass
  generalize (selfStopping eventTime).take plan step pass = result at took ⊢
  cases took with
  | counted idle still untallied =>
      rcases still with rfl | rfl
      · exact flagged
      · exact flagged
  | stopped asked => exact flagged
  | failed => exact flagged
  | @removed decision unasked =>
      rw [selfStopping, removeDuplicate_listening real]
      exact flagged.emit unasked _ _

end Performing

/-! ### Stopped runs -/

/-- A run cut short at a removal, with the calls it made. -/
structure CutShort (whole removals : List Decision) (inventory : Inventory)
    (result : Except Failure Summary × Traced (Shelf (Audience Recorder))) : Prop where
  /-- It removed the first hosts that were to be removed, in favour of the same survivors. -/
  ahead : removals <+: whole
  /-- Each of them has its event, and nothing else was recorded. -/
  heard : result.2.world.world.mail.heard = deliveries [] removals
  /-- All other hosts are stored as before. -/
  hosts : result.2.world.inventory.hosts =
    inventory.hosts.filter fun host => host.id ∉ duplicateIds removals
  policies : result.2.world.inventory.policies = inventory.policies
  /-- It returned, and was interrupted exactly when a poll was answered with a stop, as it was when
  something was left to do. -/
  returned : ∃ summary, result.1 = .ok summary ∧
    (summary.interrupted = true ↔ .poll true ∈ result.2.trace) ∧
    (removals ≠ whole → summary.interrupted = true)
  /-- Nothing was to be removed behind such a poll. -/
  halted : ∀ before after, result.2.trace = before ++ .poll true :: after →
    ∀ exchange ∈ after, exchange.target? = none

section Runs

variable {plan : Plan} {inventory : Inventory}

/-- A recorder that refuses nobody holds as many events as hosts were removed. -/
theorem length_deliveries_nil (removals : List Decision) :
    (deliveries [] removals).length = removals.length := by
  simp [deliveries]

theorem Attending.length_events {pass : Pass (Audience Recorder)} (attending : Attending [] pass) :
    pass.world.mail.events.length = pass.removals.length := by
  have heard := congrArg List.length attending.attended.heard
  rwa [List.nil_append, length_deliveries_nil, Recorder.heard, List.length_map] at heard

/-- A run stopped by the flag of its recorder removes as many hosts as the flag waits for, if there
are as many. -/
theorem run_flagged (eventTime : Nat → Recorder → Moment) (roomy : plan.Roomy inventory)
    (valid : ValidPolicies inventory) (real : plan.options.dryRun = false) {limit : Nat}
    (positive : 0 < limit) :
    let shelf : Shelf (Audience Recorder) := ⟨inventory, ⟨.start [] (some limit), 0⟩⟩
    (removed (selfStopping eventTime).custody plan shelf).length =
      min limit (plan.expected inventory).length := by
  intro shelf
  obtain ⟨endings, carried, -, -⟩ := performed_performs (selfStopping eventTime) plan inventory shelf.world
  obtain ⟨ahead, whole⟩ := removed_expected (selfStopping eventTime) real inventory shelf.world
  have unfailed := performed_unfailed (fun _ recorder => recorder.stopRaised) eventTime roomy valid real
    (Or.inr fun _ _ => List.not_mem_nil : Harmless plan [] (plan.expected inventory)) (some limit)
  let performance := (selfStopping eventTime).perform plan
    (runSteps plan { inventory with pageSizes := [] }) (Pass.blank plan shelf.world)
  have flagged : Flagged limit performance.2.world.mail := perform_flagged real _ (Flagged.start positive [])
  have attending : Attending [] performance.2 := perform_attending _ (.blank plan [] (some limit) 0)
  have events : performance.2.world.mail.events.length =
      (removed (selfStopping eventTime).custody plan shelf).length :=
    attending.length_events.trans (congrArg List.length carried.symm)
  have shorter := ahead.length_le
  have within := flagged.within
  rw [events] at within
  cases ended : (performed (selfStopping eventTime).custody.toSurroundings plan shelf).1 with
  | failed failure => exact absurd ended (unfailed failure)
  | completed =>
      have all : removed (selfStopping eventTime).custody plan shelf = plan.expected inventory := whole ended
      rw [all] at within ⊢
      omega
  | interrupted =>
      obtain ⟨-, raised⟩ := perform_interrupted _ (endings.symm.trans ended)
      have reached : limit ≤ performance.2.world.mail.events.length := flagged.raised.1 raised
      rw [events] at reached
      dsimp only [shelf] at shorter within reached ⊢
      omega

/-- Up to its calls, what a stopped run comes to. -/
theorem run_cut_short (signal : Nat → Recorder → Bool) (eventTime : Nat → Recorder → Moment)
    (roomy : plan.Roomy inventory) (valid : ValidPolicies inventory)
    (real : plan.options.dryRun = false) (stopAfter : Option Nat) :
    let custody := (listening Recorder.emitter signal eventTime).custody
    let shelf : Shelf (Audience Recorder) := ⟨inventory, ⟨.start [] stopAfter, 0⟩⟩
    CutShort (plan.expected inventory) (removed custody plan shelf) inventory
      (run custody.toSurroundings.traced plan ⟨shelf, []⟩) := by
  intro custody shelf
  have plain := run_traced custody.toSurroundings plan ⟨shelf, []⟩
  have answer : (run custody.toSurroundings plan shelf).1 =
      (run custody.toSurroundings.traced plan ⟨shelf, []⟩).1 := congrArg Prod.fst plain
  have world : (run custody.toSurroundings plan shelf).2 =
      (run custody.toSurroundings.traced plan ⟨shelf, []⟩).2.world := congrArg Prod.snd plain
  obtain ⟨heard, hosts, policies, -⟩ := run_attending signal eventTime plan inventory [] stopAfter
  obtain ⟨ahead, whole⟩ :=
    removed_expected (listening Recorder.emitter signal eventTime) real inventory shelf.world
  obtain ⟨halted, noted⟩ := run_heeds custody.toSurroundings plan shelf
  have unfailed := performed_unfailed signal eventTime roomy valid real
    (Or.inr fun _ _ => List.not_mem_nil : Harmless plan [] (plan.expected inventory)) stopAfter
  have returned := run_of_unfailed signal eventTime plan shelf unfailed
  refine ⟨ahead, world ▸ heard, world ▸ hosts, world ▸ policies, ?_, halted⟩
  refine ⟨_, answer.symm.trans returned, noted _ (answer.symm.trans returned), fun unfinished => ?_⟩
  cases ended : (performed custody.toSurroundings plan shelf).1 with
  | failed failure => exact absurd ended (unfailed failure)
  | completed => exact absurd (whole ended) unfinished
  | interrupted => exact (performed_follows custody plan shelf).interrupted ended

/-- A stop cuts a run at a removal. Let `whole` be what a run that nobody stops and whose events are all
taken removes from an inventory in memory with valid policies, and let a stop signal go by the number
of polls and by the recorder, as its flag does. The run removes the beginning of `whole`, has recorded
just the events of these hosts, leaves everything else as it was, returns, and is interrupted exactly
when a poll was answered with a stop, behind which nothing is removed; if it removed less than `whole`
it was interrupted. With the flag raised at some number of events, that many hosts are removed and as
many events recorded, unless there are fewer to remove. -/
theorem run_stopped (signal : Nat → Recorder → Bool) (eventTime calmTime : Nat → Recorder → Moment)
    (roomy : plan.Roomy inventory) (valid : ValidPolicies inventory)
    (real : plan.options.dryRun = false) (stopAfter : Option Nat) :
    let custody := (listening Recorder.emitter signal eventTime).custody
    let shelf : Shelf (Audience Recorder) := ⟨inventory, ⟨.start [] stopAfter, 0⟩⟩
    let whole := removed (unstopped calmTime).custody plan ⟨inventory, .fresh []⟩
    let removals := removed custody plan shelf
    let result := run custody.toSurroundings.traced plan ⟨shelf, []⟩
    run custody.toSurroundings plan shelf = (result.1, result.2.world) ∧
      CutShort whole removals inventory result ∧
      ∀ limit, 0 < limit → stopAfter = some limit → signal = (fun _ recorder => recorder.stopRaised) →
        removals.length = min limit whole.length ∧
          result.2.world.world.mail.events.length = min limit whole.length := by
  intro custody shelf whole removals result
  have expected : whole = plan.expected inventory := removed_unrefused calmTime roomy valid real
  have cut : CutShort whole removals inventory result := by
    rw [expected]
    exact run_cut_short signal eventTime roomy valid real stopAfter
  refine ⟨run_traced custody.toSurroundings plan ⟨shelf, []⟩, cut, ?_⟩
  rintro limit positive rfl rfl
  have count : removals.length = min limit whole.length := by
    rw [expected]
    exact run_flagged eventTime roomy valid real positive
  have events := congrArg List.length cut.heard
  rw [Recorder.heard, List.length_map, length_deliveries_nil] at events
  exact ⟨count, events.trans count⟩

/-- Of the three hosts one is removed when the recorder's flag goes up at the first event. -/
theorem three_hosts_stopped :
    let custody :=
      (listening Recorder.emitter (fun _ recorder => recorder.stopRaised) fun _ _ => .ofUnixSeconds 0).custody
    let shelf : Shelf (Audience Recorder) := ⟨threeHosts, ⟨.start [] (some 1), 0⟩⟩
    let whole := removed (unstopped fun _ _ => .ofUnixSeconds 0).custody (calmPlan 1)
      ⟨threeHosts, .fresh []⟩
    (calmPlan 1).Roomy threeHosts ∧ ValidPolicies threeHosts ∧ (calmPlan 1).options.dryRun = false ∧
      (removed custody (calmPlan 1) shelf).length = min 1 whole.length ∧ whole.length = 2 := by
  intro custody shelf whole
  have roomy : (calmPlan 1).Roomy threeHosts := ⟨by decide, by decide⟩
  have valid : ValidPolicies threeHosts := by
    intro account _ policy stored
    cases stored
  obtain ⟨-, -, flagged⟩ := run_stopped (fun _ recorder => recorder.stopRaised)
    (fun _ _ => .ofUnixSeconds 0) (fun _ _ => .ofUnixSeconds 0) roomy valid rfl (some 1)
  exact ⟨roomy, valid, rfl, (flagged 1 (by decide) rfl rfl).1, by decide⟩

end Runs

end HostPruning.Pruning
