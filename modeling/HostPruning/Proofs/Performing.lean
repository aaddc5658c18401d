import HostPruning.Proofs.Steps

/-!
# Performing steps

The steps of a run are fixed by the inventory; how far a run comes with them and what it
hears on the way is decided by what is outside its store: the emitter, the stop signal and
the clock of its events. `Outside.perform` performs steps against nothing but these, with
the program's own `removeDuplicate` over a store that confirms every removal.

A `Frame` puts a pass into another light: its world is looked at through a view, its counts are
changed, and what came before it is put in front. Where calls and counts fit the frame, framing
a performance is performing the framed one (`perform_framed`). That covers all that runs are
compared by here: worlds that differ in something no call looks at, passes that go on after
others, and counts of hosts taken up, which depend on the pages.

However far it comes, a performance has had the effects of its first steps (`perform_effects`), and
one that nobody asks to stop is completed or fails (`perform_uninterrupted`).
-/

namespace HostPruning.Pruning

variable {World Seen : Type}

/-- All that a run meets outside its store. -/
structure Outside (World : Type) where
  emitter : Emitter World
  /-- Whether the run has been asked to stop. -/
  stopRequested : World → Bool × World
  /-- The moment written into an event. -/
  eventTime : World → Moment

namespace Outside

/-- These surroundings with a store that holds nothing and confirms every removal. -/
def unstocked (outside : Outside World) : Surroundings World where
  store :=
    { accounts := fun world => (.ok [], world)
      page := fun _ _ _ world => (.ok [], world)
      candidates := fun _ _ world => (.ok [], world)
      delete := fun _ world => (.ok .deleted, world)
      policy := fun _ world => (.ok none, world) }
  emitter := outside.emitter
  stopRequested := outside.stopRequested
  eventTime := outside.eventTime

/-- Hand over the event of a removal. -/
def hear (outside : Outside World) (decision : Decision) : Call World Unit := fun world =>
  outside.emitter.emit decision.duplicate.id
    (DeleteEvent.ofDuplicate decision.duplicate decision.survivor.id (outside.eventTime world)) world

/-- Go on unless asked to stop. -/
def unlessStopped (outside : Outside World) (further : Pass World → Ending × Pass World)
    (pass : Pass World) : Ending × Pass World :=
  match outside.stopRequested pass.world with
  | (true, world) =>
      (.interrupted, (pass.inWorld world).count fun summary => { summary with interrupted := true })
  | (false, world) => further (pass.inWorld world)

/-- Perform one step. -/
def take (outside : Outside World) (plan : Plan) : Step → Pass World → Ending × Pass World
  | .enter => outside.unlessStopped fun pass =>
      (.completed, pass.count fun summary =>
        { summary with accountsProcessed := summary.accountsProcessed + 1 })
  | .scan => fun pass =>
      (.completed, pass.count fun summary => { summary with hostsScanned := summary.hostsScanned + 1 })
  | .malformed => fun pass =>
      (.completed, pass.count fun summary =>
        { summary with malformedSkipped := summary.malformedSkipped + 1 })
  | .culled count => fun pass =>
      (.completed, pass.count fun summary =>
        { summary with culledSkipped := summary.culledSkipped + count })
  | .remove decision => outside.unlessStopped (removeDuplicate outside.unstocked plan decision)
  | .fail failure => fun pass => (.failed failure, pass)

/-- Perform steps one after the other. -/
def perform (outside : Outside World) (plan : Plan) : List Step → Pass World → Ending × Pass World
  | [], pass => (.completed, pass)
  | step :: rest, pass =>
      match outside.take plan step pass with
      | (.completed, pass) => outside.perform plan rest pass
      | ended => ended

variable {outside : Outside World} {plan : Plan}

/-- Behind a completed step the performance goes on. -/
theorem perform_of_completed {step : Step} {pass : Pass World} (rest : List Step)
    (completed : (outside.take plan step pass).1 = .completed) :
    outside.perform plan (step :: rest) pass =
      outside.perform plan rest (outside.take plan step pass).2 := by
  rw [perform]
  generalize outside.take plan step pass = taken at completed ⊢
  obtain ⟨ending, after⟩ := taken
  obtain rfl : ending = .completed := completed
  rfl

/-- A step that is not completed ends the performance. -/
theorem perform_of_incomplete {step : Step} {pass : Pass World} (rest : List Step)
    (incomplete : (outside.take plan step pass).1 ≠ .completed) :
    outside.perform plan (step :: rest) pass = outside.take plan step pass := by
  rw [perform]
  generalize outside.take plan step pass = taken at incomplete ⊢
  obtain ⟨ending, after⟩ := taken
  cases ending with
  | completed => exact absurd rfl incomplete
  | interrupted => rfl
  | failed failure => rfl

/-- What each step either leaves alone, ending the performance, or changes in its own way, has after
a performance been changed by the first steps, and by all of them when the performance came to its
end. -/
theorem perform_effects {Part : Type} (part : Pass World → Part) (effect : Part → Step → Part)
    (each : ∀ step pass, part (outside.take plan step pass).2 = effect (part pass) step ∨
      (outside.take plan step pass).1 ≠ .completed ∧ part (outside.take plan step pass).2 = part pass)
    (steps : List Step) (pass : Pass World) :
    ∃ done, done <+: steps ∧ part (outside.perform plan steps pass).2 = done.foldl effect (part pass) ∧
      ((outside.perform plan steps pass).1 = .completed → done = steps) := by
  induction steps generalizing pass with
  | nil => exact ⟨[], List.prefix_rfl, rfl, fun _ => rfl⟩
  | cons step rest inductionHypothesis =>
      by_cases completed : (outside.take plan step pass).1 = .completed
      · have changed := (each step pass).resolve_right fun cut => cut.1 completed
        obtain ⟨later, ahead, further, whole⟩ := inductionHypothesis (outside.take plan step pass).2
        rw [perform_of_completed rest completed]
        refine ⟨step :: later, (List.prefix_append_right_inj [step]).2 ahead, ?_,
          fun ended => congrArg (step :: ·) (whole ended)⟩
        rw [further, changed, List.foldl_cons]
      · rw [perform_of_incomplete rest completed]
        rcases each step pass with changed | ⟨-, same⟩
        · exact ⟨[step], List.prefix_append [step] rest, changed, fun ended => absurd ended completed⟩
        · exact ⟨[], List.nil_prefix, same, fun ended => absurd ended completed⟩

/-- A performance of steps in a row goes through the first ones first. -/
theorem perform_append (first second : List Step) (pass : Pass World) :
    outside.perform plan (first ++ second) pass =
      match outside.perform plan first pass with
      | (.completed, pass) => outside.perform plan second pass
      | ended => ended := by
  induction first generalizing pass with
  | nil => rfl
  | cons step rest inductionHypothesis =>
      rw [List.cons_append, perform, perform]
      cases taken : outside.take plan step pass with
      | mk ending after =>
          cases ending with
          | completed => exact inductionHypothesis after
          | interrupted => rfl
          | failed failure => rfl

/-- Removing without a store: the decision is noted, and unless the run is a dry one it counts as
carried out and its event is handed over. -/
theorem removeDuplicate_unstocked (decision : Decision) (pass : Pass World) :
    removeDuplicate outside.unstocked plan decision pass =
      if plan.options.dryRun then (.completed, pass.decide decision)
      else publishRemoval outside.unstocked plan decision ((pass.decide decision).carryOut decision) := by
  rfl

/-- How steps are performed depends on two options: whether the run is a dry one, and what happens
to refused events. -/
theorem perform_congr {other : Plan} (dry : plan.options.dryRun = other.options.dryRun)
    (refusal : plan.options.emitFailure = other.options.emitFailure) (steps : List Step)
    (pass : Pass World) : outside.perform plan steps pass = outside.perform other steps pass := by
  have removals : ∀ decision, removeDuplicate outside.unstocked plan decision =
      removeDuplicate outside.unstocked other decision := by
    intro decision
    funext pass
    simp only [removeDuplicate_unstocked, publishRemoval, dry, refusal]
  have takes : outside.take plan = outside.take other := by
    funext step pass
    cases step <;> simp only [take, removals]
  induction steps generalizing pass with
  | nil => rfl
  | cons step rest inductionHypothesis => simp only [perform, takes, inductionHypothesis]

end Outside

/-! ### Frames -/

/-- A light to see passes in. -/
structure Frame (World Seen : Type) where
  view : World → Seen
  adapt : Summary → Summary
  /-- What was found to be duplicates before. -/
  duplicates : List HostId
  decisions : List Decision
  removals : List Decision

namespace Frame

/-- A pass in a frame. -/
def around (frame : Frame World Seen) (pass : Pass World) : Pass Seen where
  world := frame.view pass.world
  duplicates := pass.duplicates ++ frame.duplicates
  summary := frame.adapt pass.summary
  decisions := frame.decisions ++ pass.decisions
  removals := frame.removals ++ pass.removals

/-- The frame that only looks at worlds through a view. -/
def ofView (view : World → Seen) : Frame World Seen := ⟨view, id, [], [], []⟩

/-- The frame that puts a pass behind another. -/
def behind (before : Pass World) : Frame World World :=
  ⟨id, before.summary.absorb, before.duplicates, before.decisions, before.removals⟩

/-- The frame that forgets how many hosts were taken up. -/
def unscanned : Frame World World := ⟨id, fun summary => { summary with hostsScanned := 0 }, [], [], []⟩

/-- Whether counts other than that of the hosts taken up go through a change of counts. -/
structure Additive (adapt : Summary → Summary) : Prop where
  entered : ∀ summary : Summary,
    adapt { summary with accountsProcessed := summary.accountsProcessed + 1 } =
      { adapt summary with accountsProcessed := (adapt summary).accountsProcessed + 1 }
  malformed : ∀ summary : Summary,
    adapt { summary with malformedSkipped := summary.malformedSkipped + 1 } =
      { adapt summary with malformedSkipped := (adapt summary).malformedSkipped + 1 }
  culled : ∀ (summary : Summary) count,
    adapt { summary with culledSkipped := summary.culledSkipped + count } =
      { adapt summary with culledSkipped := (adapt summary).culledSkipped + count }
  found : ∀ summary : Summary,
    adapt { summary with duplicatesFound := summary.duplicatesFound + 1 } =
      { adapt summary with duplicatesFound := (adapt summary).duplicatesFound + 1 }
  deleted : ∀ summary : Summary,
    adapt { summary with hostsDeleted := summary.hostsDeleted + 1 } =
      { adapt summary with hostsDeleted := (adapt summary).hostsDeleted + 1 }
  emitted : ∀ summary : Summary,
    adapt { summary with eventsEmitted := summary.eventsEmitted + 1 } =
      { adapt summary with eventsEmitted := (adapt summary).eventsEmitted + 1 }
  refused : ∀ summary : Summary,
    adapt { summary with eventsFailed := summary.eventsFailed + 1 } =
      { adapt summary with eventsFailed := (adapt summary).eventsFailed + 1 }
  interrupted : ∀ summary : Summary,
    adapt { summary with interrupted := true } = { adapt summary with interrupted := true }

/-- Whether what is outside fits a frame: calls answer alike and lead to worlds that look alike,
and counts go through. -/
structure Fits (frame : Frame World Seen) (outside : Outside World) (other : Outside Seen) : Prop where
  stops : ∀ world,
    other.stopRequested (frame.view world) = (outside.stopRequested world).map id frame.view
  hears : ∀ decision world,
    other.hear decision (frame.view world) = (outside.hear decision world).map id frame.view
  additive : Additive frame.adapt

variable {frame : Frame World Seen} {outside : Outside World} {other : Outside Seen} {plan : Plan}

theorem unlessStopped_framed (fits : frame.Fits outside other)
    {further : Pass World → Ending × Pass World} {otherFurther : Pass Seen → Ending × Pass Seen}
    (alike : ∀ pass, otherFurther (frame.around pass) = (further pass).map id frame.around)
    (pass : Pass World) :
    other.unlessStopped otherFurther (frame.around pass) =
      (outside.unlessStopped further pass).map id frame.around := by
  have polled : other.stopRequested (frame.around pass).world =
    (outside.stopRequested pass.world).map id frame.view := fits.stops pass.world
  unfold Outside.unlessStopped
  rw [polled]
  cases outside.stopRequested pass.world with
  | mk stopped world =>
      cases stopped with
      | true => simp [around, Pass.inWorld, Pass.count, fits.additive.interrupted]
      | false => exact alike (pass.inWorld world)

theorem decide_framed (fits : frame.Fits outside other) (decision : Decision) (pass : Pass World) :
    (frame.around pass).decide decision = frame.around (pass.decide decision) := by
  simp [around, Pass.decide, fits.additive.found]

theorem carryOut_framed (fits : frame.Fits outside other) (decision : Decision) (pass : Pass World) :
    (frame.around pass).carryOut decision = frame.around (pass.carryOut decision) := by
  simp [around, Pass.carryOut, fits.additive.deleted]

theorem publishRemoval_framed (fits : frame.Fits outside other) (decision : Decision)
    (pass : Pass World) :
    publishRemoval other.unstocked plan decision (frame.around pass) =
      (publishRemoval outside.unstocked plan decision pass).map id frame.around := by
  have heard := fits.hears decision pass.world
  unfold Outside.hear at heard
  unfold publishRemoval
  dsimp only [Outside.unstocked, around] at heard ⊢
  rw [heard]
  cases outside.emitter.emit decision.duplicate.id _ pass.world with
  | mk answer world =>
      cases answer with
      | ok => simp [around, Pass.inWorld, Pass.count, fits.additive.emitted]
      | error failure =>
          cases plan.options.emitFailure <;>
            simp [around, Pass.inWorld, Pass.count, fits.additive.refused]

theorem removeDuplicate_framed (fits : frame.Fits outside other) (decision : Decision)
    (pass : Pass World) :
    removeDuplicate other.unstocked plan decision (frame.around pass) =
      (removeDuplicate outside.unstocked plan decision pass).map id frame.around := by
  rw [Outside.removeDuplicate_unstocked, Outside.removeDuplicate_unstocked, decide_framed fits]
  split
  · rfl
  · rw [carryOut_framed fits]
    exact publishRemoval_framed fits decision ((pass.decide decision).carryOut decision)

/-- Whether a step goes through a frame: any does but taking up a host, which has to be counted. -/
def Passes (frame : Frame World Seen) (step : Step) : Prop :=
  step.bare = true ∨ ∀ summary : Summary,
    frame.adapt { summary with hostsScanned := summary.hostsScanned + 1 } =
      { frame.adapt summary with hostsScanned := (frame.adapt summary).hostsScanned + 1 }

theorem take_framed (fits : frame.Fits outside other) {step : Step} (passes : frame.Passes step)
    (pass : Pass World) :
    other.take plan step (frame.around pass) = (outside.take plan step pass).map id frame.around := by
  unfold Outside.take
  cases step with
  | enter =>
      refine unlessStopped_framed fits (fun pass => ?_) pass
      simp [around, Pass.count, fits.additive.entered]
  | scan =>
      have counted := passes.resolve_left (by simp [Step.bare])
      simp [around, Pass.count, counted]
  | malformed => simp [around, Pass.count, fits.additive.malformed]
  | culled count => simp [around, Pass.count, fits.additive.culled]
  | remove decision => exact unlessStopped_framed fits (removeDuplicate_framed fits decision) pass
  | fail failure => rfl

/-- Framing a performance is performing in the frame. -/
theorem perform_framed (fits : frame.Fits outside other) {steps : List Step}
    (passes : ∀ step ∈ steps, frame.Passes step) (pass : Pass World) :
    other.perform plan steps (frame.around pass) =
      (outside.perform plan steps pass).map id frame.around := by
  induction steps generalizing pass with
  | nil => rfl
  | cons step rest inductionHypothesis =>
      have others := inductionHypothesis fun later among => passes later (List.mem_cons_of_mem _ among)
      rw [Outside.perform, Outside.perform, take_framed fits (passes step List.mem_cons_self)]
      cases taken : outside.take plan step pass with
      | mk ending after =>
          cases ending with
          | completed => exact others after
          | interrupted => rfl
          | failed failure => rfl

/-! ### The frames in use -/

/-- A view that calls respect makes a frame that fits. -/
theorem fits_ofView {view : World → Seen}
    (stops : ∀ world, other.stopRequested (view world) = (outside.stopRequested world).map id view)
    (hears : ∀ decision world, other.hear decision (view world) =
      (outside.hear decision world).map id view) : (ofView view).Fits outside other :=
  ⟨stops, hears, by constructor <;> intros <;> rfl⟩

/-- Whatever came before a pass, it goes on in the same way. -/
theorem fits_behind (outside : Outside World) (before : Pass World) :
    (behind before).Fits outside outside where
  stops := fun _ => rfl
  hears := fun _ _ => rfl
  additive := by constructor <;> intros <;> simp [behind, Summary.absorb, Nat.add_assoc]

theorem fits_unscanned (outside : Outside World) : unscanned.Fits outside outside where
  stops := fun _ => rfl
  hears := fun _ _ => rfl
  additive := by constructor <;> intros <;> rfl

theorem passes_ofView (view : World → Seen) (step : Step) : (ofView view).Passes step :=
  Or.inr fun _ => rfl

theorem passes_behind (before : Pass World) (step : Step) : (behind before).Passes step :=
  Or.inr fun _ => rfl

/-- Hosts are taken up without a trace but the count of them. -/
theorem perform_unscanned (outside : Outside World) (plan : Plan) (steps : List Step)
    (pass : Pass World) :
    (outside.perform plan steps pass).map id unscanned.around =
      outside.perform plan (steps.filter Step.bare) (unscanned.around pass) := by
  induction steps generalizing pass with
  | nil => rfl
  | cons step rest inductionHypothesis =>
      by_cases bare : step.bare = true
      · rw [List.filter_cons_of_pos bare, Outside.perform, Outside.perform,
          take_framed (fits_unscanned outside) (Or.inl bare)]
        cases taken : outside.take plan step pass with
        | mk ending after =>
            cases ending with
            | completed => exact inductionHypothesis after
            | interrupted => rfl
            | failed failure => rfl
      · obtain rfl : step = .scan := by
          cases step <;> first | rfl | exact absurd rfl bare
        rw [List.filter_cons_of_neg bare]
        exact inductionHypothesis _

end Frame

/-! ### Performances that nobody stops -/

section Unstopped

variable {outside : Outside World} {plan : Plan}

theorem unlessStopped_of_unasked (unasked : ∀ world, (outside.stopRequested world).1 = false)
    (further : Pass World → Ending × Pass World) (pass : Pass World) :
    outside.unlessStopped further pass =
      further (pass.inWorld (outside.stopRequested pass.world).2) := by
  have answer := unasked pass.world
  unfold Outside.unlessStopped
  split
  next stopped =>
    rw [stopped] at answer
    cases answer
  next goesOn => rw [goesOn]

/-- Removing a duplicate looks at no stop signal. -/
theorem removeDuplicate_uninterrupted (around : Surroundings World) (plan : Plan) (decision : Decision)
    (pass : Pass World) : (removeDuplicate around plan decision pass).1 ≠ .interrupted := by
  unfold removeDuplicate publishRemoval
  dsimp only
  repeat' split
  all_goals simp

/-- Without a request to stop, steps are completed or fail. -/
theorem perform_uninterrupted (unasked : ∀ world, (outside.stopRequested world).1 = false)
    (plan : Plan) (steps : List Step) (pass : Pass World) :
    (outside.perform plan steps pass).1 ≠ .interrupted := by
  induction steps generalizing pass with
  | nil => simp [Outside.perform]
  | cons step rest inductionHypothesis =>
      have here : (outside.take plan step pass).1 ≠ .interrupted := by
        unfold Outside.take
        cases step with
        | enter =>
            dsimp only
            rw [unlessStopped_of_unasked unasked]
            simp
        | remove decision =>
            dsimp only
            rw [unlessStopped_of_unasked unasked]
            apply removeDuplicate_uninterrupted
        | scan => simp
        | malformed => simp
        | culled count => simp
        | fail failure => simp
      by_cases completed : (outside.take plan step pass).1 = .completed
      · rw [Outside.perform_of_completed rest completed]
        exact inductionHypothesis _
      · rw [Outside.perform_of_incomplete rest completed]
        exact here

end Unstopped

end HostPruning.Pruning
