import HostPruning.Proofs.Accounts
import HostPruning.Proofs.Forecast
import HostPruning.Proofs.Tracing

/-!
# Performances before a recorder

The steps of a run are fixed by its inventory, so what a recorder and a stop signal can change is
how far the run comes with them. Here steps are performed before a recorder, whatever the stop
signal goes by. Where the page budget suffices and the stored policies are valid no step fails by
itself (`runSteps_smooth`). The recorder holds the events of the removals it does not refuse, and
they are counted so (`Attending`), the removals are the first decisions of the steps
(`perform_carries_out`), and a performance fails only through a refused event that aborts it
(`perform_unfailed`, `perform_aborts`).

`performed_unfailed` and `run_attending` take this over to runs.
-/

namespace HostPruning.Pruning

open Rehearsal

/-! ### Steps -/

/-- The decision a step is to carry out. -/
def Step.decision? : Step → Option Decision
  | .remove decision => some decision
  | _ => none

/-- The decisions that steps are to carry out. -/
def decisionsOf (steps : List Step) : List Decision := steps.filterMap Step.decision?

@[simp]
theorem decisionsOf_append (first second : List Step) :
    decisionsOf (first ++ second) = decisionsOf first ++ decisionsOf second :=
  List.filterMap_append

theorem decisionsOf_cons (step : Step) (rest : List Step) :
    decisionsOf (step :: rest) = decisionsOf [step] ++ decisionsOf rest :=
  decisionsOf_append [step] rest

/-- Taking up a host decides nothing. -/
theorem decisionsOf_filter_bare (steps : List Step) :
    decisionsOf (steps.filter Step.bare) = decisionsOf steps := by
  rw [decisionsOf, decisionsOf, List.filterMap_filter]
  congr 1
  funext step
  cases step <;> rfl

/-- No step is a failure. -/
def Smooth (steps : List Step) : Prop := ∀ failure, .fail failure ∉ steps

theorem Smooth.first {step : Step} {rest : List Step} (smooth : Smooth (step :: rest)) :
    Smooth [step] := fun failure among =>
  smooth failure (List.mem_singleton.1 among ▸ List.mem_cons_self)

theorem Smooth.rest {step : Step} {rest : List Step} (smooth : Smooth (step :: rest)) : Smooth rest :=
  fun failure later => smooth failure (List.mem_cons_of_mem _ later)

/-- The policies stored for the accounts of an inventory are valid. -/
def ValidPolicies (inventory : Inventory) : Prop :=
  ∀ account ∈ inventory.accounts, ValidPolicy inventory account

/-- Hosts alone bring no policies. -/
theorem validPolicies_ofHosts (hosts : List Host) : ValidPolicies (.ofHosts hosts) := by
  have policies : ∀ inventory : Inventory,
      (hosts.foldl Inventory.insert inventory).policies = inventory.policies := by
    induction hosts with
    | nil => exact fun _ => rfl
    | cons host rest inductionHypothesis => exact fun inventory => inductionHypothesis (inventory.insert host)
  intro account _ policy stored
  rw [Inventory.ofHosts, policies] at stored
  cases stored

/-- Nothing that is done for a host fails by itself. -/
theorem stepsFor_smooth (plan : Plan) (inventory : Inventory) (decided : List Decision)
    (pending : List Host) : Smooth (stepsFor plan inventory decided pending) := by
  intro failure
  induction pending generalizing decided with
  | nil => simp [stepsFor]
  | cons host rest inductionHypothesis =>
      simp [stepsFor, fail_not_mem_judgedSteps, inductionHypothesis]

section Accounts

variable {plan : Plan} {inventory : Inventory} {account : String}

/-- With room for its pages and under a valid policy an account has, but for the hosts taken up, the
steps for its hosts at the start. -/
theorem bare_accountSteps_of_valid (roomy : plan.Roomy inventory)
    (valid : ValidPolicy inventory account) :
    (accountSteps plan inventory account).filter Step.bare =
      stepsFor plan inventory [] (inventory.hostsOf account) := by
  rw [bare_accountSteps roomy, underPolicy]
  split
  next => rfl
  next policy stored => rw [valid policy stored]

/-- No step of such an account is a failure. -/
theorem accountSteps_smooth (roomy : plan.Roomy inventory) (valid : ValidPolicy inventory account) :
    Smooth (accountSteps plan inventory account) := by
  intro failure among
  refine stepsFor_smooth plan inventory [] (inventory.hostsOf account) failure ?_
  rw [← bare_accountSteps_of_valid roomy valid]
  exact List.mem_filter.2 ⟨among, rfl⟩

/-- With room for all pages and under valid policies no step of a run is a failure. -/
theorem runSteps_smooth (roomy : plan.Roomy inventory) (valid : ValidPolicies inventory) :
    Smooth (runSteps plan inventory) := by
  intro failure among
  obtain ⟨account, visited, here⟩ := List.mem_flatMap.1 among
  exact accountSteps_smooth roomy (valid account visited) failure
    ((List.mem_cons.1 here).resolve_left (by simp))

end Accounts

/-! ### One step -/

section Performing

variable {signal : Nat → Recorder → Bool} {eventTime : Nat → Recorder → Moment} {plan : Plan}
  {refused : List HostId}

/-- An audience of a recorder: the events it holds are those of the removals it does not refuse, and
so are the counts. -/
structure Attending (refused : List HostId) (pass : Pass (Audience Recorder)) : Prop where
  attended : Attended refused [] pass.removals pass.world.mail
  emitted : pass.summary.eventsEmitted =
    (pass.removals.filter fun decision => ! refused.contains decision.duplicate.id).length
  failed : pass.summary.eventsFailed =
    (pass.removals.filter fun decision => refused.contains decision.duplicate.id).length

/-- A real removal before a recorder: the recorder's answer decides how the pass goes on. -/
theorem removeDuplicate_listening (real : plan.options.dryRun = false) (decision : Decision)
    (pass : Pass (Audience Recorder)) :
    let heard := Recorder.emit decision.duplicate.id (DeleteEvent.ofDuplicate decision.duplicate
      decision.survivor.id (eventTime pass.world.polls pass.world.mail)) pass.world.mail
    removeDuplicate (listening Recorder.emitter signal eventTime).unstocked plan decision pass =
      (plan.afterEvent heard.1,
        (((pass.decide decision).carryOut decision).inWorld (pass.world.put heard.2)).count
          (Summary.answered heard.1)) := by
  intro heard
  rw [Outside.removeDuplicate_unstocked, if_neg (by simp [real])]
  unfold publishRemoval
  have answered : (listening Recorder.emitter signal eventTime).unstocked.emitter.emit
      decision.duplicate.id (DeleteEvent.ofDuplicate decision.duplicate decision.survivor.id
        (eventTime pass.world.polls pass.world.mail)) pass.world = (heard.1, pass.world.put heard.2) := rfl
  dsimp only [Pass.decide, Pass.carryOut] at answered ⊢
  cases emitted : heard.1 with
  | ok handed =>
      rw [emitted] at answered
      simp only [listening, Outside.unstocked] at answered ⊢
      rw [answered]
      rfl
  | error failure =>
      rw [emitted] at answered
      simp only [listening, Outside.unstocked] at answered ⊢
      rw [answered]
      unfold Plan.afterEvent
      cases plan.options.emitFailure <;> rfl

theorem emit_of_refused {key : HostId} {event : DeleteEvent} {recorder : Recorder}
    (named : key ∈ recorder.refused) :
    Recorder.emit key event recorder =
      (.error (.emission key (.reported Recorder.refusal)), recorder) := by
  simp [Recorder.emit, named]

theorem emit_of_unrefused {key : HostId} {event : DeleteEvent} {recorder : Recorder}
    (unnamed : key ∉ recorder.refused) :
    Recorder.emit key event recorder = (.ok (), recorder.keep key event) := by
  simp [Recorder.emit, unnamed]

/-- An event that is refused may abort the performance. -/
theorem removeDuplicate_of_refused (signal : Nat → Recorder → Bool)
    (eventTime : Nat → Recorder → Moment) (real : plan.options.dryRun = false) {decision : Decision}
    {pass : Pass (Audience Recorder)} (attending : Attending refused pass)
    (named : decision.duplicate.id ∈ refused) :
    (removeDuplicate (listening Recorder.emitter signal eventTime).unstocked plan decision pass).1 =
      plan.afterEvent (.error (.emission decision.duplicate.id (.reported Recorder.refusal))) := by
  rw [← attending.attended.refusing] at named
  rw [removeDuplicate_listening real, emit_of_refused named]

theorem removeDuplicate_of_unrefused (signal : Nat → Recorder → Bool)
    (eventTime : Nat → Recorder → Moment) (real : plan.options.dryRun = false) {decision : Decision}
    {pass : Pass (Audience Recorder)} (attending : Attending refused pass)
    (unnamed : decision.duplicate.id ∉ refused) :
    (removeDuplicate (listening Recorder.emitter signal eventTime).unstocked plan decision pass).1 =
      .completed := by
  rw [← attending.attended.refusing] at unnamed
  rw [removeDuplicate_listening real, emit_of_unrefused unnamed]
  rfl

theorem removeDuplicate_attending (decision : Decision) {pass : Pass (Audience Recorder)}
    (attending : Attending refused pass) :
    Attending refused
      (removeDuplicate (listening Recorder.emitter signal eventTime).unstocked plan decision pass).2 := by
  obtain ⟨attended, emitted, failed⟩ := attending
  cases dry : plan.options.dryRun with
  | true =>
      rw [Outside.removeDuplicate_unstocked, if_pos dry]
      exact ⟨attended, emitted, failed⟩
  | false =>
      have heard := attended.emit decision (eventTime pass.world.polls pass.world.mail)
      rw [removeDuplicate_listening dry]
      by_cases named : decision.duplicate.id ∈ refused
      · have taken := named
        rw [← attended.refusing] at taken
        rw [emit_of_refused taken] at heard ⊢
        refine ⟨heard, ?_, ?_⟩
        · simp [Pass.count, Pass.inWorld, Pass.carryOut, Pass.decide, Summary.answered, emitted, named]
        · simp [Pass.count, Pass.inWorld, Pass.carryOut, Pass.decide, Summary.answered, failed, named]
      · have taken := named
        rw [← attended.refusing] at taken
        rw [emit_of_unrefused taken] at heard ⊢
        refine ⟨heard, ?_, ?_⟩
        · simp [Pass.count, Pass.inWorld, Pass.carryOut, Pass.decide, Summary.answered, emitted, named]
        · simp [Pass.count, Pass.inWorld, Pass.carryOut, Pass.decide, Summary.answered, failed, named]

/-! ### Performances -/

/-- What a step comes to: a count, behind a poll or not, a stop, a removal or a failure. -/
inductive Took {World : Type} (outside : Outside World) (plan : Plan) (pass : Pass World) :
    Step → Ending × Pass World → Prop where
  | counted {step : Step} {world : World} {change : Summary → Summary} (idle : step.decision? = none)
      (still : world = pass.world ∨ world = (outside.stopRequested pass.world).2)
      (untallied : ∀ summary, (change summary).tally = summary.tally) :
      Took outside plan pass step (.completed, (pass.inWorld world).count change)
  | stopped {step : Step} (asked : (outside.stopRequested pass.world).1 = true) :
      Took outside plan pass step (.interrupted,
        (pass.inWorld (outside.stopRequested pass.world).2).count fun summary =>
          { summary with interrupted := true })
  | removed {decision : Decision} (unasked : (outside.stopRequested pass.world).1 = false) :
      Took outside plan pass (.remove decision) (removeDuplicate outside.unstocked plan decision
        (pass.inWorld (outside.stopRequested pass.world).2))
  | failed {failure : Failure} : Took outside plan pass (.fail failure) (.failed failure, pass)

theorem take_took {World : Type} (outside : Outside World) (plan : Plan) (step : Step)
    (pass : Pass World) : Took outside plan pass step (outside.take plan step pass) := by
  have polled : ∀ {step : Step} {further : Pass World → Ending × Pass World},
      ((outside.stopRequested pass.world).1 = false → Took outside plan pass step
        (further (pass.inWorld (outside.stopRequested pass.world).2))) →
      Took outside plan pass step (outside.unlessStopped further pass) := by
    intro step further goesOn
    have stops := @Took.stopped World outside plan pass step
    unfold Outside.unlessStopped
    cases asked : outside.stopRequested pass.world with
    | mk stop world =>
        rw [asked] at goesOn stops
        cases stop with
        | true => exact stops rfl
        | false => exact goesOn rfl
  have unpolled : pass.inWorld pass.world = pass := rfl
  unfold Outside.take
  cases step with
  | enter => exact polled fun _ => .counted rfl (Or.inr rfl) fun _ => rfl
  | scan =>
      dsimp only
      rw [← unpolled]
      exact .counted rfl (Or.inl rfl) fun _ => rfl
  | malformed =>
      dsimp only
      rw [← unpolled]
      exact .counted rfl (Or.inl rfl) fun _ => rfl
  | culled count =>
      dsimp only
      rw [← unpolled]
      exact .counted rfl (Or.inl rfl) fun _ => rfl
  | remove decision => exact polled fun unasked => .removed unasked
  | fail failure => exact .failed

/-- Polls and counts of other things have no part in what a recorder holds. -/
theorem Attending.count {world : Audience Recorder} {change : Summary → Summary}
    {pass : Pass (Audience Recorder)} (attending : Attending refused pass)
    (mail : world.mail = pass.world.mail)
    (untallied : ∀ summary, (change summary).tally = summary.tally) :
    Attending refused ((pass.inWorld world).count change) := by
  obtain ⟨attended, emitted, failed⟩ := attending
  have counts := untallied pass.summary
  simp only [Summary.tally, Prod.mk.injEq] at counts
  refine ⟨?_, counts.2.2.1.trans emitted, counts.2.2.2.trans failed⟩
  dsimp only [Pass.count, Pass.inWorld]
  rw [mail]
  exact attended

/-- A poll is not heard. -/
theorem Attending.polled {pass : Pass (Audience Recorder)} (attending : Attending refused pass) :
    Attending refused
      (pass.inWorld ((listening Recorder.emitter signal eventTime).stopRequested pass.world).2) :=
  ⟨attending.attended, attending.emitted, attending.failed⟩

theorem take_attending (step : Step) {pass : Pass (Audience Recorder)}
    (attending : Attending refused pass) :
    Attending refused ((listening Recorder.emitter signal eventTime).take plan step pass).2 := by
  have took := take_took (listening Recorder.emitter signal eventTime) plan step pass
  generalize (listening Recorder.emitter signal eventTime).take plan step pass = result at took ⊢
  cases took with
  | counted idle still untallied =>
      refine attending.count ?_ untallied
      rcases still with rfl | rfl
      · rfl
      · rfl
  | stopped asked =>
      dsimp only
      refine attending.count rfl ?_
      exact fun _ => rfl
  | removed unasked => exact removeDuplicate_attending _ attending.polled
  | failed => exact attending

/-- What every step keeps, a performance keeps. -/
theorem perform_keeps {World : Type} {outside : Outside World} {motive : Pass World → Prop}
    (taken : ∀ step {pass}, motive pass → motive (outside.take plan step pass).2) (steps : List Step)
    {pass : Pass World} (holds : motive pass) : motive (outside.perform plan steps pass).2 := by
  induction steps generalizing pass with
  | nil => exact holds
  | cons step rest inductionHypothesis =>
      have here := taken step holds
      by_cases completed : (outside.take plan step pass).1 = .completed
      · rw [Outside.perform_of_completed rest completed]
        exact inductionHypothesis here
      · rw [Outside.perform_of_incomplete rest completed]
        exact here

/-- However far a performance comes, the recorder holds the events of its removals but for those
refused. -/
theorem perform_attending (steps : List Step) {pass : Pass (Audience Recorder)}
    (attending : Attending refused pass) :
    Attending refused ((listening Recorder.emitter signal eventTime).perform plan steps pass).2 :=
  perform_keeps take_attending steps attending

/-- Without a store every removal of a real run is carried out. -/
theorem removeDuplicate_removals {World : Type} (outside : Outside World)
    (real : plan.options.dryRun = false) (decision : Decision) (pass : Pass World) :
    (removeDuplicate outside.unstocked plan decision pass).2.removals =
      pass.removals ++ [decision] := by
  rw [Outside.removeDuplicate_unstocked, if_neg (by simp [real]), (publishRemoval_world _ _ _ _).2]
  rfl

/-- A step of a real performance carries out its decision or ends the performance. -/
theorem take_carries_out {World : Type} (outside : Outside World) (real : plan.options.dryRun = false)
    (step : Step) (pass : Pass World) :
    (outside.take plan step pass).2.removals = pass.removals ++ decisionsOf [step] ∨
      (outside.take plan step pass).1 ≠ .completed ∧
        (outside.take plan step pass).2.removals = pass.removals := by
  have took := take_took outside plan step pass
  generalize outside.take plan step pass = result at took ⊢
  cases took with
  | counted idle still untallied =>
      have none : decisionsOf [step] = [] := by simp [decisionsOf, idle]
      rw [none, List.append_nil]
      exact Or.inl rfl
  | stopped asked => exact Or.inr ⟨by simp, rfl⟩
  | @removed decision unasked => exact Or.inl (removeDuplicate_removals outside real decision _)
  | failed => exact Or.inr ⟨by simp, rfl⟩

/-- Carrying out the decisions of steps one after the other is carrying out all of them. -/
theorem foldl_decisionsOf (removals : List Decision) (steps : List Step) :
    steps.foldl (fun removals step => removals ++ decisionsOf [step]) removals =
      removals ++ decisionsOf steps := by
  induction steps generalizing removals with
  | nil => exact (List.append_nil removals).symm
  | cons step rest inductionHypothesis =>
      rw [List.foldl_cons, inductionHypothesis, List.append_assoc, ← decisionsOf_cons]

/-- The removals of a real performance are the first decisions of its steps, and all of them when it
comes to its end. -/
theorem perform_carries_out {World : Type} (outside : Outside World)
    (real : plan.options.dryRun = false) (steps : List Step) (pass : Pass World) :
    ∃ carried, carried <+: decisionsOf steps ∧
      (outside.perform plan steps pass).2.removals = pass.removals ++ carried ∧
      ((outside.perform plan steps pass).1 = .completed → carried = decisionsOf steps) := by
  obtain ⟨done, ⟨later, rfl⟩, removals, whole⟩ :=
    Outside.perform_effects Pass.removals (fun removals step => removals ++ decisionsOf [step])
      (take_carries_out outside real) steps pass
  rw [foldl_decisionsOf] at removals
  rw [decisionsOf_append]
  refine ⟨decisionsOf done, List.prefix_append _ _, removals, fun completed => ?_⟩
  have all := congrArg decisionsOf (whole completed)
  rwa [decisionsOf_append] at all

/-! ### Refused events -/

/-- No refused event can abort a performance that is to carry out some decisions. -/
def Harmless (plan : Plan) (refused : List HostId) (decisions : List Decision) : Prop :=
  plan.options.emitFailure = .continue ∨ ∀ decision ∈ decisions, decision.duplicate.id ∉ refused

theorem Harmless.subset {fewer decisions : List Decision} (harmless : Harmless plan refused decisions)
    (within : fewer ⊆ decisions) : Harmless plan refused fewer :=
  harmless.imp_right fun unnamed decision among => unnamed decision (within among)

theorem take_unfailed (real : plan.options.dryRun = false) {step : Step} (smooth : Smooth [step])
    (harmless : Harmless plan refused (decisionsOf [step])) {pass : Pass (Audience Recorder)}
    (attending : Attending refused pass) (failure : Failure) :
    ((listening Recorder.emitter signal eventTime).take plan step pass).1 ≠ .failed failure := by
  have took := take_took (listening Recorder.emitter signal eventTime) plan step pass
  generalize (listening Recorder.emitter signal eventTime).take plan step pass = result at took ⊢
  cases took with
  | counted idle still untallied => simp
  | stopped asked => simp
  | failed => exact absurd List.mem_cons_self (smooth _)
  | @removed decision unasked =>
      by_cases named : decision.duplicate.id ∈ refused
      · have continues := harmless.resolve_right fun unnamed => unnamed decision List.mem_cons_self named
        rw [removeDuplicate_of_refused signal eventTime real attending.polled named]
        simp [Plan.afterEvent, continues]
      · rw [removeDuplicate_of_unrefused signal eventTime real attending.polled named]
        simp

/-- Where refused events do no harm, smooth steps do not fail. -/
theorem perform_unfailed (real : plan.options.dryRun = false) {steps : List Step}
    (smooth : Smooth steps) (harmless : Harmless plan refused (decisionsOf steps))
    {pass : Pass (Audience Recorder)} (attending : Attending refused pass) (failure : Failure) :
    ((listening Recorder.emitter signal eventTime).perform plan steps pass).1 ≠ .failed failure := by
  induction steps generalizing pass with
  | nil => simp [Outside.perform]
  | cons step rest inductionHypothesis =>
      rw [decisionsOf_cons] at harmless
      have here : ((listening Recorder.emitter signal eventTime).take plan step pass).1 ≠
          .failed failure :=
        take_unfailed real smooth.first (harmless.subset (List.subset_append_left _ _)) attending failure
      have attended : Attending refused
          ((listening Recorder.emitter signal eventTime).take plan step pass).2 :=
        take_attending step attending
      by_cases completed : ((listening Recorder.emitter signal eventTime).take plan step pass).1 =
          .completed
      · rw [Outside.perform_of_completed rest completed]
        exact inductionHypothesis smooth.rest (harmless.subset (List.subset_append_right _ _)) attended
      · rw [Outside.perform_of_incomplete rest completed]
        exact here

/-- A refused event may abort the performance, but its host is removed. -/
theorem removeDuplicate_aborts (signal : Nat → Recorder → Bool) (eventTime : Nat → Recorder → Moment)
    (real : plan.options.dryRun = false) (aborts : plan.options.emitFailure = .abort)
    {decision : Decision} {pass : Pass (Audience Recorder)} (attending : Attending refused pass)
    (named : decision.duplicate.id ∈ refused) :
    ∃ last, last.removals = pass.removals ++ [decision] ∧
      removeDuplicate (listening Recorder.emitter signal eventTime).unstocked plan decision pass =
        (.failed (.emission decision.duplicate.id (.reported Recorder.refusal)), last) := by
  refine ⟨_, removeDuplicate_removals _ real decision pass, Prod.ext ?_ rfl⟩
  rw [removeDuplicate_of_refused signal eventTime real attending named, Plan.afterEvent]
  simp only [aborts]

/-- An event that is taken lets the performance go on. -/
theorem removeDuplicate_goes_on (signal : Nat → Recorder → Bool) (eventTime : Nat → Recorder → Moment)
    (real : plan.options.dryRun = false) {decision : Decision} {pass : Pass (Audience Recorder)}
    (attending : Attending refused pass) (unnamed : decision.duplicate.id ∉ refused) :
    ∃ next, next.removals = pass.removals ++ [decision] ∧ Attending refused next ∧
      removeDuplicate (listening Recorder.emitter signal eventTime).unstocked plan decision pass =
        (.completed, next) :=
  ⟨_, removeDuplicate_removals _ real decision pass, removeDuplicate_attending decision attending,
    Prod.ext (removeDuplicate_of_unrefused signal eventTime real attending unnamed) rfl⟩

/-- A refused event that aborts a performance is the last thing of it, and its host is removed. -/
theorem perform_aborts (real : plan.options.dryRun = false) (aborts : plan.options.emitFailure = .abort)
    {steps : List Step} (smooth : Smooth steps) (unasked : ∀ polls mail, signal polls mail = false)
    {before after : List Decision} {decision : Decision}
    (split : decisionsOf steps = before ++ decision :: after)
    (accepted : ∀ earlier ∈ before, earlier.duplicate.id ∉ refused)
    (named : decision.duplicate.id ∈ refused) {pass : Pass (Audience Recorder)}
    (attending : Attending refused pass) :
    let result := (listening Recorder.emitter signal eventTime).perform plan steps pass
    result.1 = .failed (.emission decision.duplicate.id (.reported Recorder.refusal)) ∧
      result.2.removals = pass.removals ++ (before ++ [decision]) := by
  induction steps generalizing pass before with
  | nil => simp [decisionsOf] at split
  | cons step rest inductionHypothesis =>
      have attended : Attending refused
          ((listening Recorder.emitter signal eventTime).take plan step pass).2 :=
        take_attending step attending
      have took := take_took (listening Recorder.emitter signal eventTime) plan step pass
      unfold Outside.perform
      generalize (listening Recorder.emitter signal eventTime).take plan step pass = result
        at attended took ⊢
      cases took with
      | counted idle still untallied =>
          rw [decisionsOf_cons, decisionsOf, List.filterMap_cons_none idle] at split
          exact inductionHypothesis smooth.rest split accepted attended
      | stopped asked => simp [listening, unasked] at asked
      | failed => exact absurd List.mem_cons_self (smooth _)
      | @removed first _ =>
          cases before with
          | nil =>
              obtain ⟨rfl, -⟩ := List.cons.inj split
              obtain ⟨last, removals, ends⟩ :=
                removeDuplicate_aborts signal eventTime real aborts attending.polled named
              rw [ends]
              exact ⟨rfl, removals⟩
          | cons earlier before =>
              obtain ⟨rfl, onward⟩ := List.cons.inj split
              obtain ⟨next, removals, attended, goesOn⟩ := removeDuplicate_goes_on signal eventTime real
                attending.polled (accepted first List.mem_cons_self)
              rw [goesOn]
              obtain ⟨ends, further⟩ := inductionHypothesis smooth.rest onward
                (fun other later => accepted other (List.mem_cons_of_mem _ later)) attended
              refine ⟨ends, further.trans ?_⟩
              rw [removals, List.append_assoc]
              rfl

end Performing

/-! ### Runs -/

section Runs

variable {plan : Plan} {inventory : Inventory} {refused : List HostId}

/-- The decisions that a run over an inventory in memory carries out when nothing is in its way. -/
def Plan.expected (plan : Plan) (inventory : Inventory) : List Decision :=
  decisionsOf (runSteps plan { inventory with pageSizes := [] })

/-- Up to its flush a run over an inventory in memory is the performance of the steps that the
inventory calls for. -/
theorem performed_performs {World : Type} (outside : Outside World) (plan : Plan)
    (inventory : Inventory) (world : World) :
    let result := performed outside.custody.toSurroundings plan ⟨inventory, world⟩
    let performance := outside.perform plan (runSteps plan { inventory with pageSizes := [] })
      (Pass.blank plan world)
    result.1 = performance.1 ∧ result.2.removals = performance.2.removals ∧
      result.2.summary = performance.2.summary ∧ result.2.world.world = performance.2.world := by
  intro result performance
  have seen : result.map id Progress.shelved = performance.map id Pass.progress :=
    performed_shelved outside plan ⟨inventory, world⟩
  have component {Part : Type} (part : Ending × Progress World → Part) := congrArg part seen
  exact ⟨component Prod.fst, component fun both => both.2.removals,
    component fun both => both.2.summary, component fun both => both.2.world⟩

/-- A recorder has nothing to deliver, so its flush is only counted. -/
theorem finish_listening (signal : Nat → Recorder → Bool) (eventTime : Nat → Recorder → Moment)
    (outcome : Except Failure Summary) (shelf : Shelf (Audience Recorder)) :
    finish (listening Recorder.emitter signal eventTime).custody.toSurroundings outcome shelf =
      (outcome, { shelf with world := shelf.world.put (Recorder.flush shelf.world.mail).2 }) := by
  cases outcome <;> rfl

/-- A real run carries out the first of the decisions expected of it, and all of them when it comes
to its end. -/
theorem removed_expected {World : Type} (outside : Outside World) (real : plan.options.dryRun = false)
    (inventory : Inventory) (world : World) :
    removed outside.custody plan ⟨inventory, world⟩ <+: plan.expected inventory ∧
      ((performed outside.custody.toSurroundings plan ⟨inventory, world⟩).1 = .completed →
        removed outside.custody plan ⟨inventory, world⟩ = plan.expected inventory) := by
  obtain ⟨endings, removals, -, -⟩ := performed_performs outside plan inventory world
  obtain ⟨carried, ahead, exactly, whole⟩ := perform_carries_out outside real
    (runSteps plan { inventory with pageSizes := [] }) (Pass.blank plan world)
  have all : removed outside.custody plan ⟨inventory, world⟩ = carried := removals.trans exactly
  rw [all, endings]
  exact ⟨ahead, whole⟩

/-- A recorder that has heard nothing attends a pass that has done nothing. -/
theorem Attending.blank (plan : Plan) (refused : List HostId) (stopAfter : Option Nat) (polls : Nat) :
    Attending refused (Pass.blank plan ⟨.start refused stopAfter, polls⟩) :=
  ⟨⟨rfl, rfl⟩, rfl, rfl⟩

/-- With room for all pages, under valid policies and where refused events do no harm, a real run
before a recorder does not fail. -/
theorem performed_unfailed (signal : Nat → Recorder → Bool) (eventTime : Nat → Recorder → Moment)
    (roomy : plan.Roomy inventory) (valid : ValidPolicies inventory)
    (real : plan.options.dryRun = false) (harmless : Harmless plan refused (plan.expected inventory))
    (stopAfter : Option Nat) (failure : Failure) :
    (performed (listening Recorder.emitter signal eventTime).custody.toSurroundings plan
      ⟨inventory, ⟨.start refused stopAfter, 0⟩⟩).1 ≠ .failed failure := by
  have smooth : Smooth (runSteps plan { inventory with pageSizes := [] }) :=
    runSteps_smooth ⟨roomy.positive, roomy.enough⟩ valid
  rw [(performed_performs _ plan inventory _).1]
  exact perform_unfailed real smooth harmless (.blank plan refused stopAfter 0) failure

/-- What a recorder holds after a run, and what is stored after it, goes by the removals. -/
theorem run_attending (signal : Nat → Recorder → Bool) (eventTime : Nat → Recorder → Moment)
    (plan : Plan) (inventory : Inventory) (refused : List HostId) (stopAfter : Option Nat) :
    let custody := (listening Recorder.emitter signal eventTime).custody
    let shelf : Shelf (Audience Recorder) := ⟨inventory, ⟨.start refused stopAfter, 0⟩⟩
    let after := run custody.toSurroundings plan shelf
    let removals := removed custody plan shelf
    after.2.world.mail.heard = deliveries refused removals ∧
      after.2.inventory.hosts = inventory.hosts.filter (fun host => host.id ∉ duplicateIds removals) ∧
      after.2.inventory.policies = inventory.policies ∧
      ∀ summary, after.1 = .ok summary →
        summary.eventsEmitted =
            (removals.filter fun decision => ! refused.contains decision.duplicate.id).length ∧
          summary.eventsFailed =
            (removals.filter fun decision => refused.contains decision.duplicate.id).length := by
  intro custody shelf after removals
  obtain ⟨-, carried, counts, world⟩ :=
    performed_performs (listening Recorder.emitter signal eventTime) plan inventory shelf.world
  have attending : Attending refused ((listening Recorder.emitter signal eventTime).perform plan
      (runSteps plan { inventory with pageSizes := [] }) (Pass.blank plan shelf.world)).2 :=
    perform_attending _ (.blank plan refused stopAfter 0)
  obtain ⟨attended, emitted, failed⟩ := attending
  rw [← carried] at attended emitted failed
  rw [← counts] at emitted failed
  rw [← world] at attended
  have held := held_run custody plan shelf
  have hosts := congrArg Inventory.hosts held
  have policies := congrArg Inventory.policies held
  refine ⟨?_, hosts, policies, ?_⟩
  · dsimp only [after, custody]
    rw [run_shelved, finish_listening]
    exact attended.heard
  · intro summary returned
    obtain ⟨rfl, -⟩ := performed_of_run_ok returned
    exact ⟨emitted, failed⟩

/-- A run before a recorder that does not fail returns its counts. -/
theorem run_of_unfailed (signal : Nat → Recorder → Bool) (eventTime : Nat → Recorder → Moment)
    (plan : Plan) (shelf : Shelf (Audience Recorder))
    (unfailed : ∀ failure, (performed (listening Recorder.emitter signal
      eventTime).custody.toSurroundings plan shelf).1 ≠ .failed failure) :
    (run (listening Recorder.emitter signal eventTime).custody.toSurroundings plan shelf).1 =
      .ok (performed (listening Recorder.emitter signal eventTime).custody.toSurroundings plan
        shelf).2.summary := by
  rw [run_shelved, finish_listening, outcome_of_unfailed unfailed]

/-- Nobody stops a run whose stop signal is never raised. -/
theorem performed_completed (eventTime : Nat → Recorder → Moment) (roomy : plan.Roomy inventory)
    (valid : ValidPolicies inventory) (real : plan.options.dryRun = false)
    (harmless : Harmless plan refused (plan.expected inventory)) :
    (performed (unstopped eventTime).custody.toSurroundings plan ⟨inventory, .fresh refused⟩).1 =
      .completed := by
  have unfailed := performed_unfailed (fun _ _ => false) eventTime roomy valid real harmless none
  have uninterrupted : (performed (unstopped eventTime).custody.toSurroundings plan
      ⟨inventory, .fresh refused⟩).1 ≠ .interrupted := by
    rw [(performed_performs _ plan inventory _).1]
    exact perform_uninterrupted (fun _ => rfl) plan _ _
  cases ended : (performed (unstopped eventTime).custody.toSurroundings plan
      ⟨inventory, .fresh refused⟩).1 with
  | completed => rfl
  | interrupted => exact absurd ended uninterrupted
  | failed failure => exact absurd ended (unfailed failure)

end Runs

end HostPruning.Pruning
