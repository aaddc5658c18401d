import Mathlib.Data.List.Basic
import HostPruning.Events.Publisher

/-!
# Publishing while answers arrive

The connection reports acknowledgements and failures at any time, others wait for them, and events are
handed over and flushed between them: `entries` lists what becomes of each step, with what the tracker
was told during it. `Recorded` says how a publisher stands to all it was told and to the events it
took; every step keeps it (`Recorded.take`), so it holds at every entry, and with it what a wait, a
refusal and a flush mean (`entries_told`).
-/

namespace HostPruning.Events

/-- The message of a failure. -/
def Notice.failure? : Notice → Option String
  | .acknowledged => none
  | .failed message => some message

/-- The message of the first failure reported. -/
def firstFailure (notices : List Notice) : Option String := notices.findSome? Notice.failure?

/-- A failure reported first stays the first one. -/
theorem firstFailure_append (earlier later : List Notice) :
    firstFailure (earlier ++ later) = (firstFailure earlier).or (firstFailure later) :=
  List.findSome?_append

/-- A connection reports acknowledgements, and behind them at most one failure. -/
theorem reports_eq (arrivals : List Arrival) : ∃ count failures,
    reports arrivals = List.replicate count .acknowledged ++ failures ∧ failures.length ≤ 1 ∧
      ∀ notice ∈ failures, notice ≠ .acknowledged := by
  induction arrivals with
  | nil => exact ⟨0, [], rfl, by simp, by simp⟩
  | cons arrival rest inductionHypothesis =>
      obtain ⟨count, failures, reported, single, failed⟩ := inductionHypothesis
      cases arrival with
      | acknowledgement =>
          refine ⟨count + 1, failures, ?_, single, failed⟩
          rw [reports, reported, List.replicate_succ, List.cons_append]
      | disconnection => exact ⟨0, [], rfl, by simp, by simp⟩
      | other => exact ⟨count, failures, reported, single, failed⟩
      | failure reason => exact ⟨0, _, rfl, by simp, by simp⟩

namespace Publisher

/-! ### Steps and what becomes of them -/

/-- What happens to a publisher: the connection reports, a wait for a number of acknowledgements ends,
an event is handed over to a client that queues it or not, or all events are waited for while the
connection reports. What is reported while a wait lasts comes before its end. -/
inductive Step where
  | report (notice : Notice)
  | wait (target seconds : Nat)
  | emit (key : HostId) (event : DeleteEvent) (queued : Except String Unit)
  | flush (arriving : List Notice)

/-- What a step is answered with. -/
inductive Answer where
  | noted
  | waited (answer : Except WaitFault Nat)
  | emitted (answer : Except Failure Unit)
  | flushed (answer : Except Failure Unit)

/-- Take a step. -/
def take (publisher : Publisher) : Step → Answer × Publisher
  | .report notice => (.noted, publisher.record notice)
  | .wait target seconds => (.waited (publisher.tracker.waitFor target seconds), publisher)
  | .emit key event queued =>
      (.emitted (emitOver queued key event publisher).1, (emitOver queued key event publisher).2)
  | .flush arriving => (.flushed (flush arriving publisher).1, (flush arriving publisher).2)

/-- What the tracker is told during a step. A flush that waits for nothing listens to nothing. -/
def told (publisher : Publisher) : Step → List Notice
  | .report notice => [notice]
  | .wait _ _ => []
  | .emit _ _ _ => []
  | .flush arriving => if publisher.published = 0 then [] else arriving

/-- A step with what was told, its answer and the publisher it left. -/
structure Entry where
  step : Step
  told : List Notice
  answer : Answer
  left : Publisher

/-- What becomes of a step. -/
def entryOf (publisher : Publisher) (step : Step) : Entry :=
  ⟨step, publisher.told step, (publisher.take step).1, (publisher.take step).2⟩

/-- What becomes of steps, one after the other. -/
def entries : List Step → Publisher → List Entry
  | [], _ => []
  | step :: rest, publisher => publisher.entryOf step :: entries rest (publisher.take step).2

/-- All that was told. -/
def toldIn (entries : List Entry) : List Notice := entries.flatMap Entry.told

theorem toldIn_append (earlier later : List Entry) :
    toldIn (earlier ++ later) = toldIn earlier ++ toldIn later :=
  List.flatMap_append

/-- Whether an event was handed over with success. -/
def Answer.handedOver : Answer → Bool
  | .emitted (.ok ()) => true
  | _ => false

/-- The number of events handed over with success. -/
def handedOverIn (entries : List Entry) : Nat := entries.countP fun entry => entry.answer.handedOver

/-! ### How a publisher stands to its past -/

/-- A publisher that was told some notices and took a number of events. -/
structure Recorded (notices : List Notice) (events : Nat) (publisher : Publisher) : Prop where
  acknowledged : publisher.tracker.acknowledged = notices.count .acknowledged
  failure : publisher.tracker.failure = firstFailure notices
  published : publisher.published = events

/-- What an entry says, by all that the tracker was told until its end and the number of events handed
over with success until then. -/
structure Entry.Told (notices : List Notice) (events : Nat) (entry : Entry) : Prop where
  recorded : Recorded notices events entry.left
  /-- A wait whose target is reached ends well, even after a failure. -/
  reached : ∀ {target seconds}, entry.step = .wait target seconds →
    target ≤ notices.count .acknowledged →
      entry.answer = .waited (.ok (notices.count .acknowledged))
  broken : ∀ {target seconds message}, entry.step = .wait target seconds →
    notices.count .acknowledged < target → firstFailure notices = some message →
      ∃ fault, entry.answer = .waited (.error fault) ∧ fault.message = message
  late : ∀ {target seconds}, entry.step = .wait target seconds →
    notices.count .acknowledged < target → firstFailure notices = none →
      ∃ fault, entry.answer = .waited (.error fault) ∧
        fault.message = "timed out after " ++ toString seconds ++ "s with " ++
          toString (notices.count .acknowledged) ++ "/" ++ toString target ++ " acknowledgements"
  /-- Once a failure is recorded, an event is refused with its message. -/
  refused : ∀ {key event queued message}, entry.step = .emit key event queued →
    firstFailure notices = some message →
      entry.answer = .emitted (.error (.emission key (.reported message)))
  /-- A flush succeeds only if every event handed over was acknowledged. -/
  confirmed : entry.answer = .flushed (.ok ()) → events = 0 ∨ events ≤ notices.count .acknowledged

namespace Recorded

variable {notices : List Notice} {events : Nat} {publisher : Publisher}

theorem start {broker : Broker} (started : Publisher.start broker = .ok publisher) :
    Recorded [] 0 publisher := by
  unfold Publisher.start at started
  cases valid : broker.validate with
  | error defect =>
      rw [valid] at started
      cases started
  | ok valid' =>
      rw [valid] at started
      cases started
      exact ⟨rfl, rfl, rfl⟩

/-- One more notice is told. -/
theorem record (recorded : Recorded notices events publisher) (notice : Notice) :
    Recorded (notices ++ [notice]) events (publisher.record notice) := by
  cases notice with
  | acknowledged =>
      refine ⟨?_, ?_, recorded.published⟩
      · simp [Publisher.record, Tracker.record, recorded.acknowledged]
      · simp [Publisher.record, Tracker.record, recorded.failure, firstFailure, Notice.failure?]
  | failed message =>
      refine ⟨?_, ?_, recorded.published⟩
      · simp [Publisher.record, Tracker.record, recorded.acknowledged]
      · simp [Publisher.record, Tracker.record, recorded.failure, firstFailure, Notice.failure?]

/-- Notices are told one after the other. -/
theorem listen (recorded : Recorded notices events publisher) (arriving : List Notice) :
    Recorded (notices ++ arriving) events
      (arriving.foldl (fun waiting notice => waiting.record notice) publisher) := by
  induction arriving generalizing notices publisher with
  | nil => rwa [List.append_nil]
  | cons notice rest inductionHypothesis =>
      have onward := inductionHypothesis (recorded.record notice)
      rwa [List.append_assoc] at onward

/-- A wait is answered by what was told. -/
theorem wait (recorded : Recorded notices events publisher) (target seconds : Nat) :
    (publisher.entryOf (.wait target seconds)).Told notices events := by
  refine ⟨recorded, ?_, ?_, ?_, nofun, nofun⟩
  · rintro target seconds ⟨⟩ enough
    dsimp only [entryOf, take, Tracker.waitFor]
    rw [recorded.acknowledged, if_pos enough]
  · rintro target seconds message ⟨⟩ few failed
    refine ⟨.failed message, ?_, rfl⟩
    dsimp only [entryOf, take, Tracker.waitFor]
    rw [recorded.acknowledged, recorded.failure, if_neg (Nat.not_le.2 few), failed]
  · rintro target seconds ⟨⟩ few unfailed
    refine ⟨.timedOut seconds (notices.count .acknowledged) target, ?_, ?_⟩
    · dsimp only [entryOf, take, Tracker.waitFor]
      rw [recorded.acknowledged, recorded.failure, if_neg (Nat.not_le.2 few), unfailed]
    · unfold WaitFault.message
      dsimp only

/-- Handing an event over: a failure refuses it with its message, and only success counts. -/
theorem emit (recorded : Recorded notices events publisher) (key : HostId) (event : DeleteEvent)
    (queued : Except String Unit) :
    (publisher.entryOf (.emit key event queued)).Told notices
      (events + handedOverIn [publisher.entryOf (.emit key event queued)]) := by
  refine ⟨?_, nofun, nofun, nofun, ?_, nofun⟩
  · dsimp only [entryOf, take, emitOver, handedOverIn]
    split
    · exact recorded
    · split
      · exact recorded
      · split
        · exact recorded
        · exact ⟨recorded.acknowledged, recorded.failure, congrArg (· + 1) recorded.published⟩
  · rintro key event queued message ⟨⟩ failed
    dsimp only [entryOf, take, emitOver]
    rw [recorded.failure, failed]

/-- A flush with nothing to wait for ends well at once, another one once all is acknowledged. -/
theorem flush (recorded : Recorded notices events publisher) (arriving : List Notice) :
    (publisher.entryOf (.flush arriving)).Told (notices ++ publisher.told (.flush arriving)) events := by
  dsimp only [entryOf, take, told, Publisher.flush]
  split
  next idle =>
    rw [List.append_nil]
    refine ⟨recorded, nofun, nofun, nofun, nofun, fun _ => Or.inl ?_⟩
    exact recorded.published.symm.trans idle
  next busy =>
    have listened := recorded.listen arriving
    generalize arriving.foldl (fun waiting notice => waiting.record notice) publisher = waited at listened ⊢
    split
    next count answered =>
      refine ⟨listened, nofun, nofun, nofun, nofun, fun _ => Or.inr ?_⟩
      rw [Tracker.waitFor, listened.acknowledged, listened.published] at answered
      by_contra few
      rw [if_neg few] at answered
      split at answered <;> cases answered
    next fault refused => exact ⟨listened, nofun, nofun, nofun, nofun, nofun⟩

/-- Every step is told by what came before it. -/
theorem step {past : List Entry} (recorded : Recorded (toldIn past) (handedOverIn past) publisher)
    (step : Step) :
    (publisher.entryOf step).Told (toldIn (past ++ [publisher.entryOf step]))
      (handedOverIn (past ++ [publisher.entryOf step])) := by
  have heard : toldIn (past ++ [publisher.entryOf step]) = toldIn past ++ publisher.told step := by
    simp [toldIn, entryOf]
  have counted : handedOverIn (past ++ [publisher.entryOf step]) =
      handedOverIn past + handedOverIn [publisher.entryOf step] := List.countP_append
  rw [heard, counted]
  cases step with
  | report notice =>
      exact ⟨recorded.record notice, nofun, nofun, nofun, nofun, nofun⟩
  | wait target seconds =>
      rw [told, List.append_nil]
      exact recorded.wait target seconds
  | emit key event queued =>
      rw [told, List.append_nil]
      exact recorded.emit key event queued
  | flush arriving => exact recorded.flush arriving

/-- Every entry is told by what came before it. -/
theorem run {past : List Entry} (recorded : Recorded (toldIn past) (handedOverIn past) publisher)
    {steps : List Step} {before after : List Entry} {entry : Entry}
    (split : publisher.entries steps = before ++ entry :: after) :
    entry.Told (toldIn (past ++ before ++ [entry])) (handedOverIn (past ++ before ++ [entry])) := by
  induction steps generalizing past publisher before with
  | nil => cases before <;> cases split
  | cons step rest inductionHypothesis =>
      have here := recorded.step step
      cases before with
      | nil =>
          obtain ⟨rfl, -⟩ := List.cons.inj split
          rwa [List.append_nil]
      | cons first before =>
          obtain ⟨rfl, further⟩ := List.cons.inj split
          have later := inductionHypothesis here.recorded further
          rwa [List.append_assoc past, List.singleton_append] at later

end Recorded

/-- However reports, waits, events and flushes follow one another, every answer and every publisher on
the way is told by the notices and the successes so far, and a failure recorded once is recorded for ever. -/
theorem entries_told {broker : Broker} {publisher : Publisher}
    (started : Publisher.start broker = .ok publisher) (steps : List Step) :
    (∀ before entry after, publisher.entries steps = before ++ entry :: after →
      entry.Told (toldIn (before ++ [entry])) (handedOverIn (before ++ [entry]))) ∧
    ∀ before entry after, publisher.entries steps = before ++ entry :: after →
      ∀ message, entry.left.tracker.failure = some message →
        ∀ later ∈ after, later.left.tracker.failure = some message := by
  have told : ∀ before entry after, publisher.entries steps = before ++ entry :: after →
      entry.Told (toldIn (before ++ [entry])) (handedOverIn (before ++ [entry])) := by
    intro before entry after split
    have fresh : Recorded (toldIn []) (handedOverIn []) publisher := Recorded.start started
    exact fresh.run split
  refine ⟨told, ?_⟩
  intro before entry after split message failed later among
  obtain ⟨between, rest, rfl⟩ := List.append_of_mem among
  have first := told before entry _ split
  have second := told (before ++ entry :: between) later rest (by simp [split])
  have longer : before ++ entry :: between ++ [later] = (before ++ [entry]) ++ (between ++ [later]) := by
    simp
  rw [second.recorded.failure, longer, toldIn_append, firstFailure_append, ← first.recorded.failure, failed,
    Option.some_or]

/-- A publisher with standard settings. -/
def fresh : Publisher := ⟨.standard, .start, 0⟩

/-- The event of a host without facts. -/
def plainEvent : DeleteEvent where
  kind := DeleteEvent.deleteKind
  id := ⟨4, by decide⟩
  account := "a"
  displayName := none
  reporter := none
  facts := []
  survivor := ⟨5, by decide⟩
  timestamp := ⟨0, 0⟩

/-- The connection is lost behind the first of two acknowledgements. -/
def lostConnection : List Step :=
  [.emit plainEvent.id plainEvent (.ok ()), .report .acknowledged, .flush [],
    .emit plainEvent.id plainEvent (.ok ()), .flush [.failed "lost", .failed "again"], .wait 1 5,
    .wait 2 5, .emit plainEvent.id plainEvent (.ok ())]

theorem lost_connection_told :
    Publisher.start .standard = .ok fresh ∧ handedOverIn (fresh.entries lostConnection) = 2 ∧
      (∀ before entry after, fresh.entries lostConnection = before ++ entry :: after →
        entry.Told (toldIn (before ++ [entry])) (handedOverIn (before ++ [entry]))) ∧
      ∀ before entry after, fresh.entries lostConnection = before ++ entry :: after →
        ∀ message, entry.left.tracker.failure = some message →
          ∀ later ∈ after, later.left.tracker.failure = some message :=
  have started : Publisher.start .standard = .ok fresh := rfl
  ⟨started, by decide +kernel, entries_told started lostConnection⟩

end Publisher

end HostPruning.Events
