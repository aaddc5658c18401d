import HostPruning.Proofs.Recording

/-!
# What a dry run foretells

A dry run decides and removes nothing. Everything it does before its flush is reading
(`performed_dry`), so the hosts it decided to remove are still there when the next one is
scanned; they are left out because it remembers them. A real run on the same inventory comes
to the same decisions, one poll of the stop signal for each, as long as no emission ends it
(`take_foretells`). `dry_run_foretells` puts the two together.
-/

namespace HostPruning.Pruning

open Rehearsal

/-- A plan as a dry run or as a real one. -/
def Plan.dry (plan : Plan) (dryRun : Bool) : Plan :=
  { plan with options := { plan.options with dryRun := dryRun } }

/-! ### Dry runs read -/

section Reading

variable {World : Type} {around : Surroundings World} {plan : Plan}

theorem removeDuplicate_dry (dry : plan.options.dryRun = true) (decision : Decision)
    (pass : Pass World) :
    removeDuplicate around plan decision pass = (.completed, pass.decide decision) := by
  unfold removeDuplicate
  dsimp only
  rw [if_pos dry]

/-- In any surroundings a dry run only reads, up to its flush, and removes nothing. -/
theorem performed_dry (dry : plan.options.dryRun = true) (world : World) :
    Relation.ReflTransGen (Reading around) world (performed around plan world).2.world ∧
      (performed around plan world).2.removals = [] := by
  have pass : ∀ account, Kept around plan account fun pass =>
      Relation.ReflTransGen (Reading around) world pass.world ∧ pass.removals = [] := fun account =>
    { reads := fun reading quiet => ⟨quiet.1.tail reading, quiet.2⟩
      counts := fun _ quiet => quiet
      removes := fun _ quiet => by
        rw [removeDuplicate_dry dry]
        exact quiet }
  refine performed_keeps (motive := fun progress =>
    Relation.ReflTransGen (Reading around) world progress.world ∧ progress.removals = []) ?_ ⟨.refl, rfl⟩
  exact
    { reads := fun reading quiet => ⟨quiet.1.tail reading, quiet.2⟩
      stops := fun quiet => quiet
      absorbs := fun {progress account} quiet => by
        have during : Relation.ReflTransGen (Reading around) world
            (passAccount around plan account progress.world).2.world ∧
              (passAccount around plan account progress.world).2.removals = [] :=
          passAccount_keeps (pass account) ⟨quiet.1, rfl⟩
        refine ⟨during.1, ?_⟩
        rw [Progress.absorb, quiet.2, during.2]
        rfl }

end Reading

section Forecast

variable {Mail : Type}

/-- An audience whose stop signal goes by how often it was asked. -/
def polling (emitter : Emitter Mail) (signal : Nat → Bool) (eventTime : Nat → Mail → Moment) :
    Outside (Audience Mail) :=
  listening emitter (fun polls _ => signal polls) eventTime

variable {emitter : Emitter Mail} {signal : Nat → Bool} {eventTime : Nat → Mail → Moment} {plan : Plan}

theorem readings_keep {shelf next : Shelf (Audience Mail)}
    (readings : Relation.ReflTransGen
      (Reading (polling emitter signal eventTime).custody.toSurroundings) shelf next) :
    next.world.mail = shelf.world.mail ∧ next.inventory.hosts = shelf.inventory.hosts ∧
      next.inventory.policies = shelf.inventory.policies := by
  induction readings with
  | refl => exact ⟨rfl, rfl, rfl⟩
  | tail _ reading inductionHypothesis =>
      obtain ⟨mail, hosts, policies⟩ := reading.keeps
      exact ⟨mail.trans inductionHypothesis.1, hosts.trans inductionHypothesis.2.1,
        policies.trans inductionHypothesis.2.2⟩

/-! ### Dry runs decide as real ones do -/

/-- The counts that have no part in removals and pages. -/
def Summary.forecast (summary : Summary) : Summary where
  accountsProcessed := summary.accountsProcessed
  duplicatesFound := summary.duplicatesFound
  malformedSkipped := summary.malformedSkipped
  culledSkipped := summary.culledSkipped
  interrupted := summary.interrupted

/-- A dry pass beside a real one that it foretells. -/
structure Foretells (dry real : Pass (Audience Mail)) : Prop where
  polls : dry.world.polls = real.world.polls
  decisions : dry.decisions = real.decisions
  counts : dry.summary.forecast = real.summary.forecast

/-- A dry part of a run beside a real one that ended in the same way. -/
def Foretold (dry real : Ending × Pass (Audience Mail)) : Prop :=
  dry.1 = real.1 ∧ Foretells dry.2 real.2

/-- Counting the same thing on both sides is foretold. -/
theorem Foretells.count {dry real : Pass (Audience Mail)} (foretells : Foretells dry real)
    {change : Summary → Summary}
    (apart : ∀ summary, (change summary).forecast = (change summary.forecast).forecast) :
    Foretold (.completed, dry.count change) (.completed, real.count change) := by
  refine ⟨rfl, foretells.polls, foretells.decisions, ?_⟩
  dsimp only [Pass.count]
  rw [apart dry.summary, apart real.summary, foretells.counts]

/-- A removal that does not end the run is foretold by the decision. -/
theorem removeDuplicate_foretells (decision : Decision) {dry real : Pass (Audience Mail)}
    (foretells : Foretells dry real)
    (unfailed : ∀ failure, (removeDuplicate (polling emitter signal eventTime).unstocked
      (plan.dry false) decision real).1 ≠ .failed failure) :
    Foretold
      (removeDuplicate (polling emitter signal eventTime).unstocked (plan.dry true) decision dry)
      (removeDuplicate (polling emitter signal eventTime).unstocked (plan.dry false) decision real) := by
  have decided : Foretells (dry.decide decision) ((real.decide decision).carryOut decision) :=
    ⟨foretells.polls, congrArg (· ++ [decision]) foretells.decisions,
      congrArg (fun summary => { summary with duplicatesFound := summary.duplicatesFound + 1 })
        foretells.counts⟩
  have polls : ((polling emitter signal eventTime).hear decision real.world).2.polls =
    real.world.polls := rfl
  rw [removeDuplicate_dry rfl]
  rw [Outside.removeDuplicate_unstocked, if_neg (by simp [Plan.dry])] at unfailed ⊢
  unfold publishRemoval at unfailed ⊢
  unfold Outside.hear at polls
  dsimp only [Outside.unstocked, Pass.decide, Pass.carryOut] at unfailed ⊢
  cases emitted : (polling emitter signal eventTime).emitter.emit decision.duplicate.id
      (DeleteEvent.ofDuplicate decision.duplicate decision.survivor.id
        ((polling emitter signal eventTime).eventTime real.world)) real.world with
  | mk answer world =>
      rw [emitted] at unfailed polls
      cases answer with
      | ok => exact ⟨rfl, decided.polls.trans polls.symm, decided.decisions, decided.counts⟩
      | error failure =>
          cases refusal : plan.options.emitFailure with
          | «continue» =>
              simp only [Plan.dry, refusal]
              exact ⟨rfl, decided.polls.trans polls.symm, decided.decisions, decided.counts⟩
          | abort =>
              simp only [Plan.dry, refusal] at unfailed
              exact absurd rfl (unfailed failure)

/-- Both sides have asked as often, so they are stopped alike. -/
theorem unlessStopped_foretells
    {dryFurther realFurther : Pass (Audience Mail) → Ending × Pass (Audience Mail)}
    {dry real : Pass (Audience Mail)} (foretells : Foretells dry real)
    (further : ∀ {dry real}, Foretells dry real →
      (∀ failure, (realFurther real).1 ≠ .failed failure) → Foretold (dryFurther dry) (realFurther real))
    (unfailed : ∀ failure,
      ((polling emitter signal eventTime).unlessStopped realFurther real).1 ≠ .failed failure) :
    Foretold ((polling emitter signal eventTime).unlessStopped dryFurther dry)
      ((polling emitter signal eventTime).unlessStopped realFurther real) := by
  obtain ⟨polls, decisions, counts⟩ := foretells
  unfold Outside.unlessStopped polling listening at unfailed ⊢
  dsimp only at unfailed ⊢
  rw [polls]
  cases stopped : signal real.world.polls with
  | true =>
      refine ⟨rfl, rfl, decisions, ?_⟩
      exact congrArg (fun summary => { summary with interrupted := true }) counts
  | false =>
      rw [stopped] at unfailed
      exact further ⟨rfl, decisions, counts⟩ unfailed

theorem take_foretells (step : Step) {dry real : Pass (Audience Mail)} (foretells : Foretells dry real)
    (unfailed : ∀ failure,
      ((polling emitter signal eventTime).take (plan.dry false) step real).1 ≠ .failed failure) :
    Foretold ((polling emitter signal eventTime).take (plan.dry true) step dry)
      ((polling emitter signal eventTime).take (plan.dry false) step real) := by
  unfold Outside.take at unfailed ⊢
  cases step with
  | enter => exact unlessStopped_foretells foretells (fun begun _ => begun.count fun _ => rfl) unfailed
  | scan => exact foretells.count fun _ => rfl
  | malformed => exact foretells.count fun _ => rfl
  | culled count => exact foretells.count fun _ => rfl
  | remove decision =>
      exact unlessStopped_foretells foretells (removeDuplicate_foretells decision) unfailed
  | fail failure => exact absurd rfl (unfailed failure)

/-- The dry performance of some steps foretells a real one that does not fail. -/
theorem perform_foretells (steps : List Step) {dry real : Pass (Audience Mail)}
    (foretells : Foretells dry real)
    (unfailed : ∀ failure,
      ((polling emitter signal eventTime).perform (plan.dry false) steps real).1 ≠ .failed failure) :
    Foretold ((polling emitter signal eventTime).perform (plan.dry true) steps dry)
      ((polling emitter signal eventTime).perform (plan.dry false) steps real) := by
  induction steps generalizing dry real with
  | nil => exact ⟨rfl, foretells⟩
  | cons step rest inductionHypothesis =>
      have here : (∀ failure, ((polling emitter signal eventTime).take (plan.dry false) step real).1 ≠
          .failed failure) → Foretold
            ((polling emitter signal eventTime).take (plan.dry true) step dry)
            ((polling emitter signal eventTime).take (plan.dry false) step real) :=
        take_foretells step foretells
      unfold Outside.perform at unfailed ⊢
      cases realTaken : (polling emitter signal eventTime).take (plan.dry false) step real with
      | mk ending realAfter =>
          rw [realTaken] at here unfailed
          cases dryTaken : (polling emitter signal eventTime).take (plan.dry true) step dry with
          | mk dryEnding dryAfter =>
              rw [dryTaken] at here
              cases ending with
              | failed failure => exact absurd rfl (unfailed failure)
              | interrupted =>
                  obtain ⟨rfl, foretold⟩ := here (by rintro failure ⟨⟩)
                  exact ⟨rfl, foretold⟩
              | completed =>
                  obtain ⟨rfl, foretold⟩ := here (by rintro failure ⟨⟩)
                  exact inductionHypothesis foretold unfailed

/-- The performance behind a dry or a real run. -/
theorem performed_polling (emitter : Emitter Mail) (signal : Nat → Bool)
    (eventTime : Nat → Mail → Moment) {inventory : Inventory} (roomy : plan.Roomy inventory)
    (audience : Audience Mail) (dryRun : Bool) :
    let custody := (polling emitter signal eventTime).custody
    let result := performed custody.toSurroundings (plan.dry dryRun) ⟨inventory, audience⟩
    let performance := (polling emitter signal eventTime).perform (plan.dry dryRun)
      (plan.agenda (custody.held ⟨inventory, audience⟩)) (Pass.blank (plan.dry dryRun) audience)
    result.1 = performance.1 ∧ result.2.decisions = performance.2.decisions ∧
      result.2.summary.forecast = performance.2.summary.forecast := by
  intro custody result performance
  have fits : (Frame.ofView id).Fits (polling emitter signal eventTime)
      (polling emitter signal eventTime) :=
    Frame.fits_ofView (fun _ => rfl) fun _ _ => rfl
  have roomyEither : (plan.dry dryRun).Roomy inventory := ⟨roomy.positive, roomy.enough⟩
  have agendas : ∀ stored, (plan.dry dryRun).agenda stored = plan.agenda stored :=
    agenda_congr ⟨rfl, rfl⟩
  have observed : result.map id (Progress.observed (id ∘ Shelf.world)) =
      performance.map id Pass.progress := by
    dsimp only [performance]
    rw [← agendas]
    exact performed_observed fits roomyEither
  have component {Part : Type} (part : Ending × Progress (Audience Mail) → Part) :=
    congrArg part observed
  exact ⟨component Prod.fst, component fun seen => seen.2.decisions,
    component fun seen => seen.2.summary.forecast⟩

/-- Up to their flushes, a dry run and a real one that does not fail end alike, with the same
decisions and the same counts but for removals and pages. -/
theorem performed_foretold {inventory : Inventory} (roomy : plan.Roomy inventory)
    {audience : Audience Mail}
    (unfailed : ∀ failure, (performed (polling emitter signal eventTime).custody.toSurroundings
      (plan.dry false) ⟨inventory, audience⟩).1 ≠ .failed failure) :
    let dry := performed (polling emitter signal eventTime).custody.toSurroundings (plan.dry true)
      ⟨inventory, audience⟩
    let real := performed (polling emitter signal eventTime).custody.toSurroundings (plan.dry false)
      ⟨inventory, audience⟩
    dry.1 = real.1 ∧ dry.2.decisions = real.2.decisions ∧
      dry.2.summary.forecast = real.2.summary.forecast := by
  obtain ⟨dryEnding, dryDecisions, dryCounts⟩ :=
    performed_polling emitter signal eventTime roomy audience true
  obtain ⟨realEnding, realDecisions, realCounts⟩ :=
    performed_polling emitter signal eventTime roomy audience false
  have begun : Foretells (Pass.blank (plan.dry true) audience) (Pass.blank (plan.dry false) audience) :=
    ⟨rfl, rfl, rfl⟩
  rw [realEnding] at unfailed
  have foretold := perform_foretells _ begun unfailed
  intro dry real
  exact ⟨dryEnding.trans (foretold.1.trans realEnding.symm),
    dryDecisions.trans (foretold.2.decisions.trans realDecisions.symm),
    dryCounts.trans (foretold.2.counts.trans realCounts.symm)⟩

/-- A part that did not fail amounts to its counts. -/
theorem outcome_of_unfailed {ending : Ending} (unfailed : ∀ failure, ending ≠ .failed failure)
    (summary : Summary) : ending.outcome summary = .ok summary := by
  cases ending with
  | failed failure => exact absurd rfl (unfailed failure)
  | completed => rfl
  | interrupted => rfl

/-- A flush in any surroundings with a store in memory is the emitter's, and after a run that did
not fail its answer decides. -/
theorem finish_polling (outcome : Except Failure Summary) (shelf : Shelf (Audience Mail)) :
    (finish (polling emitter signal eventTime).custody.toSurroundings outcome shelf).2.world.mail =
        (emitter.flush shelf.world.mail).2 ∧
      ∀ summary, outcome = .ok summary →
        (finish (polling emitter signal eventTime).custody.toSurroundings outcome shelf).1 =
          (emitter.flush shelf.world.mail).1.map fun _ => summary := by
  constructor
  · rw [finish_world]
    rfl
  · rintro summary rfl
    unfold finish
    dsimp only [Outside.custody, Outside.beside, polling, listening, Call.onPart]
    cases (emitter.flush shelf.world.mail).1 <;> rfl

/-- A dry run over a store in memory only reads up to its flush: it removes nothing and hands over
nothing, whatever the emitter. When the real run returns, the dry run has decided on exactly the
removals that the real one carried out, and unless its flush fails it returns the same counts of
accounts, duplicates and skipped hosts, and is interrupted when the real one is. -/
theorem dry_run_foretells (emitter : Emitter Mail) (signal : Nat → Bool)
    (eventTime : Nat → Mail → Moment) {inventory : Inventory} (roomy : plan.Roomy inventory)
    (audience : Audience Mail) :
    let custody := (polling emitter signal eventTime).custody
    let shelf : Shelf (Audience Mail) := ⟨inventory, audience⟩
    let dryRun := run custody.toSurroundings (plan.dry true) shelf
    let realRun := run custody.toSurroundings (plan.dry false) shelf
    let dryPerformed := (performed custody.toSurroundings (plan.dry true) shelf).2
    Relation.ReflTransGen (Reading custody.toSurroundings) shelf dryPerformed.world ∧
      removed custody (plan.dry true) shelf = [] ∧
      dryRun.2.inventory.hosts = inventory.hosts ∧ dryRun.2.inventory.policies = inventory.policies ∧
      dryRun.2.world.mail = (emitter.flush audience.mail).2 ∧
      ∀ summary, realRun.1 = .ok summary →
        dryPerformed.decisions = removed custody (plan.dry false) shelf ∧
        ∃ foretold : Summary,
          dryRun.1 = (emitter.flush audience.mail).1.map (fun _ => foretold) ∧
          foretold.accountsProcessed = summary.accountsProcessed ∧
          foretold.duplicatesFound = summary.duplicatesFound ∧
          foretold.malformedSkipped = summary.malformedSkipped ∧
          foretold.culledSkipped = summary.culledSkipped ∧
          foretold.interrupted = summary.interrupted ∧
          foretold.duplicatesFound = summary.hostsDeleted := by
  intro custody shelf dryRun realRun dryPerformed
  have dry : (plan.dry true).options.dryRun = true := rfl
  obtain ⟨readings, nothing⟩ : Relation.ReflTransGen (Reading custody.toSurroundings) shelf
      dryPerformed.world ∧ dryPerformed.removals = [] := performed_dry dry shelf
  obtain ⟨mail, hosts, policies⟩ := readings_keep readings
  have dryFinished := run_shelved (polling emitter signal eventTime) (plan.dry true) shelf
  have flushed : dryRun.2.inventory = dryPerformed.world.inventory ∧
      dryRun.2.world.mail = (emitter.flush dryPerformed.world.world.mail).2 := by
    dsimp only [dryRun]
    rw [dryFinished]
    refine ⟨?_, (finish_polling _ _).1⟩
    rw [finish_world]
    rfl
  rw [mail] at flushed
  refine ⟨readings, nothing, flushed.1 ▸ hosts, flushed.1 ▸ policies, flushed.2, ?_⟩
  intro summary returned
  obtain ⟨rfl, unfailed⟩ := performed_of_run_ok returned
  obtain ⟨endings, decisions, counts⟩ := performed_foretold roomy unfailed
  have carried := (performed_follows custody (plan.dry false) shelf).carried unfailed
  rw [due_of_real (by simp [Plan.dry])] at carried
  have tallied := performed_tallied custody.toSurroundings (plan.dry false) shelf
  refine ⟨decisions.trans carried.symm, dryPerformed.summary, ?_, ?_⟩
  · have outcome : (performed custody.toSurroundings (plan.dry true) shelf).1.outcome
        dryPerformed.summary = .ok dryPerformed.summary :=
      outcome_of_unfailed (by rwa [endings]) _
    dsimp only [dryRun]
    rw [dryFinished, (finish_polling _ _).2 _ outcome, mail]
  · simp only [Summary.forecast, Summary.mk.injEq, true_and, and_true] at counts
    obtain ⟨accounts, found, malformed, culled, interrupted⟩ := counts
    refine ⟨accounts, found, malformed, culled, interrupted, found.trans ?_⟩
    rw [tallied.found, tallied.deleted, carried]

/-- Three hosts, of which two are removed and were to be. -/
theorem three_hosts_foretold :
    let custody := (polling Recorder.emitter (fun _ => false) fun _ _ => .ofUnixSeconds 0).custody
    let shelf : Shelf (Audience Recorder) := ⟨threeHosts, ⟨.start [] none, 0⟩⟩
    (calmPlan 1).Roomy threeHosts ∧
      (run custody.toSurroundings ((calmPlan 1).dry true) shelf).2.inventory.hosts = threeHosts.hosts ∧
      (run custody.toSurroundings ((calmPlan 1).dry false) shelf).1.isOk = true ∧
      (performed custody.toSurroundings ((calmPlan 1).dry true) shelf).2.decisions =
        removed custody ((calmPlan 1).dry false) shelf := by
  intro custody shelf
  have roomy : (calmPlan 1).Roomy threeHosts := ⟨by decide, by decide⟩
  obtain ⟨-, -, kept, -, -, foretold⟩ := dry_run_foretells Recorder.emitter (fun _ => false)
    (fun _ _ => .ofUnixSeconds 0) roomy ⟨.start [] none, 0⟩
  cases returned : (run custody.toSurroundings ((calmPlan 1).dry false) shelf).1 with
  | error failure =>
      have succeeds : (run custody.toSurroundings ((calmPlan 1).dry false) shelf).1.isOk = true := by
        decide
      rw [returned] at succeeds
      cases succeeds
  | ok summary => exact ⟨roomy, kept, rfl, (foretold summary returned).1⟩

end Forecast

end HostPruning.Pruning
