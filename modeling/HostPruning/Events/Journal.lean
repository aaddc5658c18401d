import HostPruning.Events.ByteSink
import HostPruning.Store

/-!
# The event journal

A journal writes every delete event as one line of JSON, the envelope, and counts the
lines. A line that a sink cuts off is not counted and fails the hand-over, so the only torn
line is the last one.
-/

namespace HostPruning.Events

/-- A file of event lines. -/
structure Journal where
  sink : ByteSink
  /-- The number of lines written. -/
  written : Nat

namespace Journal

/-- A journal without lines. -/
def onto (sink : ByteSink) : Journal := ⟨sink, 0⟩

/-- The line break after each line. -/
def lineBreak : List UInt8 := [10]

/-- Write a line and then its line break; the answer says whether both went in. -/
def writeLine (line : String) (sink : ByteSink) : Bool × ByteSink :=
  match sink.write (Text.utf8 line) with
  | (false, sink) => (false, sink)
  | (true, sink) => sink.write lineBreak

/-- Write one event. An event without a text writes nothing. -/
def emit (key : HostId) (event : DeleteEvent) : Call Journal Unit := fun journal =>
  match Envelope.text ⟨key, event⟩ with
  | none => (.error (.emission key .encoding), journal)
  | some line =>
      match writeLine line journal.sink with
      | (false, sink) => (.error (.emission key (.write sink.refusal)), { journal with sink := sink })
      | (true, sink) => (.ok (), ⟨sink, journal.written + 1⟩)

/-- Flush the file. -/
def flush : Call Journal Unit := fun journal =>
  match journal.sink.flush with
  | (.error reason, sink) => (.error (.flush (.flush reason)), { journal with sink := sink })
  | (.ok (), sink) => (.ok (), { journal with sink := sink })

/-- The most bytes that a character cut off at the end can leave behind. -/
def greatestTear : Nat := 3

/-- The text of bytes of which the last character may be cut off; a cut character shows as a
replacement character. -/
def tornText (bytes : List UInt8) : Option String :=
  let whole (tear : Nat) : Option String :=
    (String.fromUTF8? ⟨(bytes.take (bytes.length - tear)).toArray⟩).map fun text =>
      if tear = 0 then text else text.push (Char.ofNat 0xFFFD)
  (List.range (greatestTear + 1)).findSome? whole

/-- The text that arrived. -/
def text (journal : Journal) : String := (tornText journal.sink.accepted).getD ""

/-- A journal as an emitter. -/
def emitter : Emitter Journal := ⟨emit, flush⟩

end Journal

end HostPruning.Events
