import HostPruning.Proofs.Memory

/-!
# Recorded runs

Runs are compared by what a recorder holds of them, which leaves the moments of events aside:
no clock stands still between two runs. A recorder looks neither at these moments nor at the
events it already holds, so what it hears next does not depend on them (`recording_behind`).
Of a pass it hears the events of the removals whose hosts it does not refuse, in their order,
and nothing else (`passAccount_attended`).
-/

namespace HostPruning

/-- An event without its moment. -/
def DeleteEvent.undated (event : DeleteEvent) : DeleteEvent :=
  { event with timestamp := .ofUnixSeconds 0 }

namespace Rehearsal.Recorder

/-- The events a recorder holds, without their moments. -/
def heard (recorder : Recorder) : List (HostId × DeleteEvent) :=
  recorder.events.map fun entry => (entry.1, entry.2.undated)

/-- A recorder that holds some events in front of its own and has no stop flag. -/
def behind (before : List (HostId × DeleteEvent)) (recorder : Recorder) : Recorder :=
  { Recorder.start recorder.refused none with events := before ++ recorder.heard }

/-- What a recorder holds has no part in what it takes. -/
theorem emit_behind (before : List (HostId × DeleteEvent)) (key : HostId) (event : DeleteEvent)
    (recorder : Recorder) :
    emit key event.undated (recorder.behind before) =
      (emit key event recorder).map id (behind before) := by
  have refusedAlike : (recorder.behind before).refused = recorder.refused := rfl
  unfold emit
  rw [refusedAlike]
  split
  · rfl
  · simp [behind, heard, keep, reached, start]

end Rehearsal.Recorder

namespace Pruning

open Rehearsal

/-- Whoever attends a run over a store: what came of its events, and how often the run has asked
whether to stop. -/
structure Audience (Mail : Type) where
  mail : Mail
  polls : Nat

/-- Replace the mail of an audience. -/
def Audience.put {Mail : Type} (mail : Mail) (audience : Audience Mail) : Audience Mail :=
  { audience with mail }

/-- An emitter, a stop signal that knows how often it was asked and what came of the events, and a
clock that does. -/
def listening {Mail : Type} (emitter : Emitter Mail) (signal : Nat → Mail → Bool)
    (eventTime : Nat → Mail → Moment) : Outside (Audience Mail) where
  emitter :=
    { emit := fun key event => (emitter.emit key event).onPart Audience.mail Audience.put
      flush := emitter.flush.onPart Audience.mail Audience.put }
  stopRequested audience :=
    (signal audience.polls audience.mail, { audience with polls := audience.polls + 1 })
  eventTime audience := eventTime audience.polls audience.mail

/-- Reading reaches neither the mail nor what is stored. -/
theorem Reading.keeps {Mail : Type} {emitter : Emitter Mail} {signal : Nat → Mail → Bool}
    {eventTime : Nat → Mail → Moment} {shelf next : Shelf (Audience Mail)}
    (reading : Reading (listening emitter signal eventTime).custody.toSurroundings shelf next) :
    next.world.mail = shelf.world.mail ∧ next.inventory.hosts = shelf.inventory.hosts ∧
      next.inventory.policies = shelf.inventory.policies := by
  cases reading <;> exact ⟨rfl, rfl, rfl⟩

/-- A recorder and a stop signal that goes by the number of polls and of events. -/
def recording (signal : Nat → Nat → Bool) (eventTime : Nat → Recorder → Moment) :
    Outside (Audience Recorder) :=
  listening Recorder.emitter (fun polls recorder => signal polls recorder.events.length) eventTime

/-- The same with moments that are all alike. -/
def recordingUndated (signal : Nat → Nat → Bool) : Outside (Audience Recorder) :=
  recording signal fun _ _ => .ofUnixSeconds 0

/-- An audience that has heard some events and some polls before. -/
def Audience.behind (before : List (HostId × DeleteEvent)) (polls : Nat)
    (audience : Audience Recorder) : Audience Recorder :=
  ⟨audience.mail.behind before, polls + audience.polls⟩

/-- What was heard before has no part in what is heard next, and neither have the moments of
events, unless the stop signal goes by it. -/
theorem recording_behind {signal other : Nat → Nat → Bool} (eventTime : Nat → Recorder → Moment)
    (before : List (HostId × DeleteEvent)) (polls : Nat)
    (alike : ∀ further count, other (polls + further) (before.length + count) = signal further count) :
    (Frame.ofView (Audience.behind before polls)).Fits (recording signal eventTime)
      (recordingUndated other) := by
  refine Frame.fits_ofView (fun audience => ?_) fun decision audience => ?_
  · have count : (audience.mail.behind before).events.length =
        before.length + audience.mail.events.length := by
      simp [Recorder.behind, Recorder.heard]
    simp [recordingUndated, recording, listening, Audience.behind, count, alike, Nat.add_assoc]
  · have taken := Recorder.emit_behind before decision.duplicate.id
      (DeleteEvent.ofDuplicate decision.duplicate decision.survivor.id
        (eventTime audience.polls audience.mail)) audience.mail
    have undated : ∀ moment, (DeleteEvent.ofDuplicate decision.duplicate decision.survivor.id
        moment).undated = DeleteEvent.ofDuplicate decision.duplicate decision.survivor.id
          (.ofUnixSeconds 0) := fun _ => rfl
    rw [undated] at taken
    simp only [recordingUndated, recording, listening, Outside.hear, Call.onPart, Recorder.emitter,
      Audience.behind, taken]
    rfl

/-- A recorder has nothing to deliver, so its flush is only counted. -/
theorem finish_recording (signal : Nat → Nat → Bool) (eventTime : Nat → Recorder → Moment)
    (outcome : Except Failure Summary) (shelf : Shelf (Audience Recorder)) :
    finish (recording signal eventTime).custody.toSurroundings outcome shelf =
      (outcome, { shelf with world := shelf.world.put (Recorder.flush shelf.world.mail).2 }) := by
  cases outcome <;> rfl

/-! ### What a recorder hears of a pass -/

/-- The events of removals that a recorder takes, without their moments. -/
def deliveries (refused : List HostId) (removals : List Decision) : List (HostId × DeleteEvent) :=
  (removals.filter fun decision => ! refused.contains decision.duplicate.id).map fun decision =>
    (decision.duplicate.id,
      DeleteEvent.ofDuplicate decision.duplicate decision.survivor.id (.ofUnixSeconds 0))

@[simp]
theorem deliveries_nil (refused : List HostId) : deliveries refused [] = [] := rfl

@[simp]
theorem deliveries_append (refused : List HostId) (first second : List Decision) :
    deliveries refused (first ++ second) = deliveries refused first ++ deliveries refused second := by
  simp [deliveries]

theorem deliveries_flatMap {Key : Type} (refused : List HostId) (removals : Key → List Decision)
    (keys : List Key) : deliveries refused (keys.flatMap removals) =
      keys.flatMap fun key => deliveries refused (removals key) := by
  induction keys with
  | nil => rfl
  | cons key rest inductionHypothesis =>
      rw [List.flatMap_cons, List.flatMap_cons, deliveries_append, inductionHypothesis]

/-- Every event is about a removed host. -/
theorem exists_of_mem_deliveries {refused : List HostId} {removals : List Decision}
    {entry : HostId × DeleteEvent} (among : entry ∈ deliveries refused removals) :
    ∃ decision ∈ removals, entry.2.account = decision.duplicate.account := by
  obtain ⟨decision, taken, rfl⟩ := List.mem_map.1 among
  exact ⟨decision, (List.mem_filter.1 taken).1, rfl⟩

/-- A recorder that refuses some hosts and holds, behind what it held before, the events of some
removals. -/
structure Attended (refused : List HostId) (before : List (HostId × DeleteEvent))
    (removals : List Decision) (recorder : Recorder) : Prop where
  refusing : recorder.refused = refused
  heard : recorder.heard = before ++ deliveries refused removals

variable {eventTime : Nat → Recorder → Moment} {signal : Nat → Nat → Bool} {refused : List HostId}
  {before : List (HostId × DeleteEvent)}

/-- Handing over an event is all that is heard of a removal. -/
theorem Attended.emit {removals : List Decision} {recorder : Recorder}
    (attended : Attended refused before removals recorder) (decision : Decision) (moment : Moment) :
    Attended refused before (removals ++ [decision])
      (Recorder.emit decision.duplicate.id
        (DeleteEvent.ofDuplicate decision.duplicate decision.survivor.id moment) recorder).2 := by
  obtain ⟨refusing, heard⟩ := attended
  unfold Recorder.emit
  rw [refusing]
  by_cases unheard : refused.contains decision.duplicate.id = true
  · rw [if_pos unheard]
    refine ⟨refusing, ?_⟩
    rw [heard, deliveries_append]
    simp [deliveries, List.contains_iff_mem.1 unheard]
  · rw [if_neg unheard]
    refine ⟨refusing, ?_⟩
    have added : (recorder.keep decision.duplicate.id (DeleteEvent.ofDuplicate decision.duplicate
        decision.survivor.id moment)).heard = recorder.heard ++ [(decision.duplicate.id,
          (DeleteEvent.ofDuplicate decision.duplicate decision.survivor.id moment).undated)] := by
      simp [Recorder.heard, Recorder.keep]
    have taken : decision.duplicate.id ∉ refused := fun named =>
      unheard (List.contains_iff_mem.2 named)
    rw [added, heard, deliveries_append, List.append_assoc]
    simp [deliveries, taken]
    rfl

/-- What is heard later comes behind what was heard. -/
theorem Attended.append {removals more : List Decision} {recorder later : Recorder}
    (attended : Attended refused before removals recorder)
    (further : Attended refused recorder.heard more later) :
    Attended refused before (removals ++ more) later := by
  refine ⟨further.refusing, ?_⟩
  rw [further.heard, attended.heard, deliveries_append, List.append_assoc]

theorem publishRemoval_world {World : Type} (around : Surroundings World) (plan : Plan)
    (decision : Decision) (pass : Pass World) :
    (publishRemoval around plan decision pass).2.world =
        (around.emitter.emit decision.duplicate.id (DeleteEvent.ofDuplicate decision.duplicate
          decision.survivor.id (around.eventTime pass.world)) pass.world).2 ∧
      (publishRemoval around plan decision pass).2.removals = pass.removals := by
  unfold publishRemoval
  dsimp only
  split
  next emitted => exact ⟨congrArg Prod.snd emitted.symm, rfl⟩
  next emitted =>
    split
    · exact ⟨congrArg Prod.snd emitted.symm, rfl⟩
    · exact ⟨congrArg Prod.snd emitted.symm, rfl⟩

/-- A recorder attends a removal. -/
theorem removeDuplicate_attended {plan : Plan} {decision : Decision}
    {pass : Pass (Shelf (Audience Recorder))}
    (attended : Attended refused before pass.removals pass.world.world.mail) :
    let after := (removeDuplicate (recording signal eventTime).custody.toSurroundings plan decision
      pass).2
    Attended refused before after.removals after.world.world.mail := by
  have kept : ((recording signal eventTime).custody.store.delete decision.duplicate.id
    pass.world).2.world = pass.world.world := rfl
  unfold removeDuplicate
  dsimp only
  split
  next => exact attended
  next =>
    dsimp only [Pass.decide]
    cases deleted : (recording signal eventTime).custody.store.delete decision.duplicate.id
        pass.world with
    | mk answer shelf =>
        rw [deleted] at kept
        cases answer with
        | error failure =>
            dsimp only [Pass.inWorld]
            rw [kept]
            exact attended
        | ok removal =>
            cases removal with
            | notFound =>
                dsimp only [Pass.inWorld]
                rw [kept]
                exact attended
            | deleted =>
                obtain ⟨world, removals⟩ := publishRemoval_world
                  (recording signal eventTime).custody.toSurroundings plan decision
                  (((pass.decide decision).inWorld shelf).carryOut decision)
                have emitted := attended.emit decision (eventTime shelf.world.polls shelf.world.mail)
                rw [← kept] at emitted
                dsimp only [Pass.decide] at world removals ⊢
                rw [world, removals]
                exact emitted

/-- A recorder attends a pass. -/
theorem passAccount_attended (signal : Nat → Nat → Bool) (eventTime : Nat → Recorder → Moment)
    (plan : Plan) (account : String) (shelf : Shelf (Audience Recorder))
    (refusing : shelf.world.mail.refused = refused) :
    let pass := (passAccount (recording signal eventTime).custody.toSurroundings plan account shelf).2
    Attended refused shelf.world.mail.heard pass.removals pass.world.world.mail := by
  have kept : Kept (recording signal eventTime).custody.toSurroundings plan account fun pass =>
      Attended refused shelf.world.mail.heard pass.removals pass.world.world.mail :=
    { reads := fun reading attended => by
        have mail := reading.keeps.1
        dsimp only [Pass.inWorld]
        rw [mail]
        exact attended
      counts := fun _ attended => attended
      removes := fun _ attended => removeDuplicate_attended attended }
  apply passAccount_keeps kept
  exact ⟨refusing, by simp [Pass.start]⟩

end Pruning

end HostPruning
