import HostPruning.Events.Journal
import HostPruning.Proofs.Encoding
import HostPruning.Proofs.Lines

/-!
# Journals on limited sinks

A journal is written into a sink that takes a limited number of bytes in all: of a write that does not fit
it takes the front and refuses the rest. Whatever events are emitted, what arrives is the front of the
stream of all their lines (`stream`): an event is emitted exactly when its line break still fits, the
lines that ended are those of the events that were emitted, and they are read back as these events. Only
behind the last line break can there be a torn line (`emitAll_streamed`).

`Framed` says what the attempts so far have left; `Framed.step` adds an attempt, and `Framed.run` all of
them.
-/

namespace HostPruning.Events

/-! ### Limited sinks -/

/-- What a sink without a buffer that takes a limited number of bytes is like when some bytes were
offered to it. -/
structure ByteSink.Offered (limit : Nat) (bytes : List UInt8) (sink : ByteSink) : Prop where
  direct : sink.bufferSize = 0
  idle : sink.waiting = []
  accepted : sink.accepted = bytes.take limit
  room : sink.room = some (limit - bytes.length)

namespace ByteSink.Offered

variable {limit : Nat} {bytes : List UInt8} {sink : ByteSink}

theorem start (limit : Nat) (refusal : String) (flushRefusal : Option String) :
    Offered limit [] (limited (some limit) refusal flushRefusal) :=
  ⟨rfl, rfl, (List.take_nil).symm, rfl⟩

/-- Once the sink is full, nothing that is offered changes it. -/
theorem beyond (offered : Offered limit bytes sink) (full : limit ≤ bytes.length) (more : List UInt8) :
    Offered limit (bytes ++ more) sink where
  direct := offered.direct
  idle := offered.idle
  accepted := by rw [offered.accepted, List.take_append_of_le_length full]
  room := by
    rw [offered.room, List.length_append]
    congr 1
    omega

/-- What is written goes in as far as there is room. -/
theorem write (offered : Offered limit bytes sink) (more : List UInt8) :
    (sink.write more).1 = decide (more.length ≤ limit - bytes.length) ∧
      Offered limit (bytes ++ more) (sink.write more).2 := by
  obtain ⟨direct, idle, accepted, room⟩ := offered
  have fits : (more.drop (limit - bytes.length)).isEmpty = decide (more.length ≤ limit - bytes.length) := by
    rw [Bool.eq_iff_iff, decide_eq_true_iff, List.isEmpty_iff, List.drop_eq_nil_iff]
  cases sink with
  | mk _ _ refusal flushRefusal _ _ =>
      subst direct idle accepted room
      have left : limit - bytes.length - more.length = limit - (bytes ++ more).length := by
        rw [List.length_append]
        omega
      have written :
          ByteSink.write ⟨bytes.take limit, some (limit - bytes.length), refusal, flushRefusal, 0, []⟩ more =
            (decide (more.length ≤ limit - bytes.length), ⟨(bytes ++ more).take limit,
              some (limit - (bytes ++ more).length), refusal, flushRefusal, 0, []⟩) := by
        rw [← left, ← fits, List.take_append]
        cases more <;> simp [ByteSink.write, drain, take, arrive]
      rw [written]
      exact ⟨rfl, rfl, rfl, rfl, rfl⟩

/-- A line goes in if its line break still fits. -/
theorem writeLine (offered : Offered limit bytes sink) (line : String) :
    (Journal.writeLine line sink).1 = decide ((bytes ++ (Text.utf8 line ++ [10])).length ≤ limit) ∧
      Offered limit (bytes ++ (Text.utf8 line ++ [10])) (Journal.writeLine line sink).2 := by
  obtain ⟨went, further⟩ := offered.write (Text.utf8 line)
  obtain ⟨ended, whole⟩ := further.write [10]
  have length : (bytes ++ (Text.utf8 line ++ [10])).length = bytes.length + (Text.utf8 line).length + 1 := by
    simp
    omega
  rw [List.append_assoc] at whole
  unfold Journal.writeLine
  cases written : sink.write (Text.utf8 line) with
  | mk all next =>
      rw [written] at went further ended whole
      dsimp only at *
      cases all with
      | true =>
          have lineFits := of_decide_eq_true went.symm
          refine ⟨ended.trans (decide_eq_decide.2 ?_), whole⟩
          rw [length, List.length_append, List.length_singleton]
          omega
      | false =>
          have lineCut := of_decide_eq_false went.symm
          refine ⟨(decide_eq_false ?_).symm, ?_⟩
          · rw [length]
            omega
          · rw [← List.append_assoc]
            exact further.beyond (by rw [List.length_append]; omega) [10]

end ByteSink.Offered

namespace Journal

/-! ### Emitting events -/

/-- The bytes of the lines of those events that have a text. -/
def lines (envelopes : List Envelope) : List (List UInt8) :=
  (envelopes.filterMap Envelope.text).map Text.utf8

/-- The lines in a row, each with its line break. -/
def stream (envelopes : List Envelope) : List UInt8 := terminated (lines envelopes)

/-- An attempt to write an event. -/
structure Attempt where
  envelope : Envelope
  /-- The journal that the attempt found. -/
  found : Journal
  answer : Except Failure Unit
  left : Journal

/-- Emit one event. -/
def attempt (envelope : Envelope) (journal : Journal) : Attempt :=
  let (answer, left) := emit envelope.key envelope.event journal
  ⟨envelope, journal, answer, left⟩

/-- Emit events one after the other, whatever comes of each; gives the journal that is left. -/
def emitAll : List Envelope → Journal → List Attempt × Journal
  | [], journal => ([], journal)
  | envelope :: rest, journal =>
      let now := attempt envelope journal
      let (later, last) := emitAll rest now.left
      (now :: later, last)

/-- The events that were emitted. -/
def succeeded (past : List Attempt) : List Envelope :=
  (past.filter fun attempt => attempt.answer.isOk).map Attempt.envelope

section Append

variable {envelopes : List Envelope} {envelope : Envelope} {past : List Attempt} {now : Attempt}

theorem stream_append_none (silent : envelope.text = none) :
    stream (envelopes ++ [envelope]) = stream envelopes := by
  simp [stream, lines, List.filterMap_append, silent]

theorem lines_append_some {line : String} (written : envelope.text = some line) :
    lines (envelopes ++ [envelope]) = lines envelopes ++ [Text.utf8 line] := by
  simp [lines, List.filterMap_append, written]

theorem stream_append_some {line : String} (written : envelope.text = some line) :
    stream (envelopes ++ [envelope]) = stream envelopes ++ (Text.utf8 line ++ [10]) := by
  rw [stream, lines_append_some written, terminated_append]
  simp [stream, terminated]

theorem succeeded_append_ok (succeeds : now.answer = .ok ()) :
    succeeded (past ++ [now]) = succeeded past ++ [now.envelope] := by
  simp [succeeded, List.filter_append, succeeds, Except.isOk, Except.toBool]

theorem succeeded_append_error {failure : Failure} (fails : now.answer = .error failure) :
    succeeded (past ++ [now]) = succeeded past := by
  simp [succeeded, List.filter_append, fails, Except.isOk, Except.toBool]

end Append

/-- The line of an event has no line break. -/
theorem lineBreak_not_mem {envelope : Envelope} {line : String} (written : envelope.text = some line) :
    10 ∉ Text.utf8 line := by
  obtain ⟨value, -, rfl⟩ := Option.map_eq_some_iff.1 written
  exact Text.lineBreak_not_mem_utf8 (Json.printable_render value)

theorem attempt_of_none {envelope : Envelope} (silent : envelope.text = none) (journal : Journal) :
    attempt envelope journal =
      ⟨envelope, journal, .error (.emission envelope.key .encoding), journal⟩ := by
  obtain ⟨key, event⟩ := envelope
  unfold attempt emit
  rw [silent]

theorem attempt_of_whole {envelope : Envelope} {line : String} (written : envelope.text = some line)
    {journal : Journal} {sink : ByteSink} (went : writeLine line journal.sink = (true, sink)) :
    attempt envelope journal = ⟨envelope, journal, .ok (), ⟨sink, journal.written + 1⟩⟩ := by
  obtain ⟨key, event⟩ := envelope
  unfold attempt emit
  rw [written]
  dsimp only
  rw [went]

theorem attempt_of_cut {envelope : Envelope} {line : String} (written : envelope.text = some line)
    {journal : Journal} {sink : ByteSink} (cut : writeLine line journal.sink = (false, sink)) :
    attempt envelope journal = ⟨envelope, journal, .error (.emission envelope.key (.write sink.refusal)),
      { journal with sink := sink }⟩ := by
  obtain ⟨key, event⟩ := envelope
  unfold attempt emit
  rw [written]
  dsimp only
  rw [cut]

theorem unbroken_lines {envelopes : List Envelope} : ∀ line ∈ lines envelopes, 10 ∉ line := by
  intro line among
  obtain ⟨text, there, rfl⟩ := List.mem_map.1 among
  obtain ⟨envelope, -, written⟩ := List.mem_filterMap.1 there
  exact lineBreak_not_mem written

/-- How an attempt ends, given the attempts before it: an event with a text is emitted if its line break
still fits, an event without one changes nothing, and a failure names the key. -/
structure Judged (limit : Nat) (past : List Attempt) (now : Attempt) : Prop where
  succeeds : now.envelope.text.isSome = true → (now.answer = .ok () ↔
    (stream ((past ++ [now]).map Attempt.envelope)).length ≤ limit)
  silent : now.envelope.text = none → now.answer ≠ .ok () ∧ now.left = now.found
  named : ∀ failure, now.answer = .error failure → ∃ fault, failure = .emission now.envelope.key fault

theorem named_of_emission {now : Attempt} {fault : DeliveryFault}
    (fails : now.answer = .error (.emission now.envelope.key fault)) :
    ∀ failure, now.answer = .error failure → ∃ fault, failure = .emission now.envelope.key fault := by
  intro failure failed
  rw [fails] at failed
  cases failed
  exact ⟨fault, rfl⟩

/-- What a journal is like after some attempts: the lines of the events that were emitted have arrived
whole, and behind them at most the front of one more line. -/
structure Framed (limit : Nat) (past : List Attempt) (journal : Journal) : Prop where
  offered : journal.sink.Offered limit (stream (past.map Attempt.envelope))
  legible : ∀ envelope ∈ succeeded past, envelope.text.isSome = true
  torn : ∃ torn, journal.sink.accepted = terminated (lines (succeeded past)) ++ torn ∧ 10 ∉ torn ∧
    ((stream (past.map Attempt.envelope)).length < limit → torn = [])
  counted : journal.written = (succeeded past).length

namespace Framed

variable {limit : Nat} {past : List Attempt} {journal : Journal}

theorem start (limit : Nat) (refusal : String) (flushRefusal : Option String) :
    Framed limit [] (onto (.limited (some limit) refusal flushRefusal)) where
  offered := .start limit refusal flushRefusal
  legible := by simp [succeeded]
  torn := ⟨[], rfl, by simp, fun _ => rfl⟩
  counted := rfl

variable {now : Attempt} {line : String} {sink : ByteSink}

/-- An event without a text leaves the journal as it is. -/
theorem silent (framed : Framed limit past journal) (noText : now.envelope.text = none)
    (fails : now.answer = .error (.emission now.envelope.key .encoding)) (unchanged : now.left = now.found)
    (found : now.found = journal) : Judged limit past now ∧ Framed limit (past ++ [now]) now.left := by
  have same : stream ((past ++ [now]).map Attempt.envelope) = stream (past.map Attempt.envelope) := by
    rw [List.map_append]
    exact stream_append_none noText
  refine ⟨⟨by simp [noText], fun _ => ⟨by simp [fails], unchanged⟩, named_of_emission fails⟩, ?_⟩
  rw [unchanged, found]
  obtain ⟨offered, legible, torn, counted⟩ := framed
  rw [← same] at offered torn
  rw [← succeeded_append_error fails] at legible torn counted
  exact ⟨offered, legible, torn, counted⟩

theorem stream_past_append (written : now.envelope.text = some line) :
    stream ((past ++ [now]).map Attempt.envelope) =
      stream (past.map Attempt.envelope) ++ (Text.utf8 line ++ [10]) := by
  rw [List.map_append]
  exact stream_append_some written

/-- A line that still fits arrives whole. -/
theorem whole (framed : Framed limit past journal) (written : now.envelope.text = some line)
    (fits : (stream (past.map Attempt.envelope) ++ (Text.utf8 line ++ [10])).length ≤ limit)
    (offered : sink.Offered limit (stream (past.map Attempt.envelope) ++ (Text.utf8 line ++ [10])))
    (succeeds : now.answer = .ok ()) (left : now.left = ⟨sink, journal.written + 1⟩) :
    Judged limit past now ∧ Framed limit (past ++ [now]) now.left := by
  have grown : stream ((past ++ [now]).map Attempt.envelope) = _ := stream_past_append written
  refine ⟨⟨fun _ => iff_of_true succeeds (grown ▸ fits), by simp [written], by simp [succeeds]⟩, ?_⟩
  rw [left]
  have room : (stream (past.map Attempt.envelope)).length < limit := by
    simp only [List.length_append, List.length_singleton] at fits
    omega
  obtain ⟨torn, arrived, -, complete⟩ := framed.torn
  obtain rfl := complete room
  have before : stream (past.map Attempt.envelope) = terminated (lines (succeeded past)) := by
    rw [← List.append_nil (terminated _), ← arrived, framed.offered.accepted,
      List.take_of_length_le (Nat.le_of_lt room)]
  have after : sink.accepted = terminated (lines (succeeded (past ++ [now]))) := by
    rw [offered.accepted, List.take_of_length_le fits, before, succeeded_append_ok succeeds,
      lines_append_some written, terminated_append]
    simp [terminated]
  refine ⟨grown ▸ offered, ?_, ⟨[], by simp [after], by simp, fun _ => rfl⟩, ?_⟩
  · rw [succeeded_append_ok succeeds, List.forall_mem_append]
    exact ⟨framed.legible, by simp [written]⟩
  · rw [succeeded_append_ok succeeds, List.length_append, ← framed.counted]
    rfl

/-- A line that does not fit is cut in front of its line break. -/
theorem cut (framed : Framed limit past journal) (written : now.envelope.text = some line)
    (unfit : limit < (stream (past.map Attempt.envelope) ++ (Text.utf8 line ++ [10])).length)
    (offered : sink.Offered limit (stream (past.map Attempt.envelope) ++ (Text.utf8 line ++ [10])))
    (fails : now.answer = .error (.emission now.envelope.key (.write sink.refusal)))
    (left : now.left = { journal with sink := sink }) :
    Judged limit past now ∧ Framed limit (past ++ [now]) now.left := by
  have grown : stream ((past ++ [now]).map Attempt.envelope) = _ := stream_past_append written
  refine ⟨⟨fun _ => iff_of_false (by simp [fails]) (grown ▸ Nat.not_le.2 unfit), by simp [written],
    named_of_emission fails⟩, ?_⟩
  rw [left]
  obtain ⟨torn, arrived, noBreak, -⟩ := framed.torn
  refine ⟨grown ▸ offered, ?_, ?_, ?_⟩
  · rw [succeeded_append_error fails]
    exact framed.legible
  · have inLine : limit - (stream (past.map Attempt.envelope)).length ≤ (Text.utf8 line).length := by
      simp only [List.length_append, List.length_singleton] at unfit
      omega
    refine ⟨torn ++ (Text.utf8 line).take (limit - (stream (past.map Attempt.envelope)).length), ?_, ?_,
      fun room => absurd (grown ▸ room) (Nat.not_lt.2 (Nat.le_of_lt unfit))⟩
    · rw [succeeded_append_error fails, offered.accepted, List.take_append,
        List.take_append_of_le_length inLine, ← framed.offered.accepted, arrived, List.append_assoc]
    · rw [List.mem_append, not_or]
      exact ⟨noBreak, fun there => lineBreak_not_mem written (List.mem_of_mem_take there)⟩
  · rw [succeeded_append_error fails]
    exact framed.counted

theorem step (framed : Framed limit past journal) (envelope : Envelope) :
    Judged limit past (attempt envelope journal) ∧
      Framed limit (past ++ [attempt envelope journal]) (attempt envelope journal).left := by
  cases written : envelope.text with
  | none =>
      rw [attempt_of_none written]
      exact framed.silent written rfl rfl rfl
  | some line =>
      obtain ⟨fits, offered⟩ := framed.offered.writeLine line
      cases went : writeLine line journal.sink with
      | mk all sink =>
          rw [went] at fits offered
          cases all with
          | true =>
              rw [attempt_of_whole written went]
              exact framed.whole written (of_decide_eq_true fits.symm) offered rfl rfl
          | false =>
              rw [attempt_of_cut written went]
              exact framed.cut written (Nat.lt_of_not_le (of_decide_eq_false fits.symm)) offered rfl rfl

/-- Further attempts keep what holds of the attempts so far, and each is judged by those before it. -/
theorem run (framed : Framed limit past journal) (envelopes : List Envelope) :
    Framed limit (past ++ (emitAll envelopes journal).1) (emitAll envelopes journal).2 ∧
      ∀ front now later, (emitAll envelopes journal).1 = front ++ now :: later →
        Judged limit (past ++ front) now := by
  induction envelopes generalizing past journal with
  | nil =>
      refine ⟨by simpa [emitAll] using framed, ?_⟩
      intro front now later split
      cases front <;> cases split
  | cons envelope rest inductionHypothesis =>
      obtain ⟨judged, further⟩ := framed.step envelope
      obtain ⟨last, others⟩ := inductionHypothesis further
      rw [List.append_assoc, List.singleton_append] at last
      refine ⟨last, ?_⟩
      intro front now later split
      cases front with
      | nil =>
          obtain ⟨rfl, -⟩ := List.cons.inj split
          rwa [List.append_nil]
      | cons first front =>
          obtain ⟨same, behind⟩ := List.cons.inj split
          have there := others front now later behind
          rwa [List.append_assoc, List.singleton_append, same] at there

end Framed

end Journal

end HostPruning.Events
