import HostPruning.Text.Blank

/-!
# Byte sinks

A byte sink accepts bytes in order, and perhaps only so many in all: what does not fit is
cut off and refused. Bytes may wait in a buffer before they reach the sink, so that a
refusal shows up later, at the write that overflows the buffer or at the flush.
-/

namespace HostPruning.Events

/-- A place that bytes are written to. -/
structure ByteSink where
  /-- The bytes that arrived, first one first. -/
  accepted : List UInt8
  /-- How many more bytes can arrive; without a number there is no limit. -/
  room : Option Nat
  /-- The reason given when bytes do not fit. -/
  refusal : String
  /-- The reason given when a flush is refused in any case. -/
  flushRefusal : Option String
  /-- How many bytes may wait. -/
  bufferSize : Nat
  /-- The bytes that wait, first one first. -/
  waiting : List UInt8

namespace ByteSink

/-- A sink without a buffer that takes a limited number of bytes. -/
def limited (room : Option Nat) (refusal : String) (flushRefusal : Option String) : ByteSink :=
  ⟨[], room, refusal, flushRefusal, 0, []⟩

/-- The number of bytes that wait for a file. -/
def fileBuffer : Nat := 8192

/-- A buffered file; `room` is none for a file on a disk. -/
def file (room : Option Nat) (refusal : String) : ByteSink := ⟨[], room, refusal, none, fileBuffer, []⟩

/-- Let bytes arrive as far as there is room; gives the bytes that did not fit. -/
def arrive (sink : ByteSink) (bytes : List UInt8) : List UInt8 × ByteSink :=
  match sink.room with
  | none => ([], { sink with accepted := sink.accepted ++ bytes })
  | some room =>
      (bytes.drop room,
        { sink with accepted := sink.accepted ++ bytes.take room, room := some (room - bytes.length) })

/-- Let the waiting bytes arrive; those that do not fit go on waiting. The answer says whether
all arrived. -/
def drain (sink : ByteSink) : Bool × ByteSink :=
  let (refused, sink) := sink.arrive sink.waiting
  (refused.isEmpty, { sink with waiting := refused })

/-- Let bytes wait. -/
def hold (sink : ByteSink) (bytes : List UInt8) : ByteSink :=
  { sink with waiting := sink.waiting ++ bytes }

/-- Take bytes once the buffer has room for them: more than a buffer holds goes past it. -/
def take (sink : ByteSink) (bytes : List UInt8) : Bool × ByteSink :=
  if sink.bufferSize ≤ bytes.length then
    let (refused, sink) := sink.arrive bytes
    (refused.isEmpty, sink)
  else (true, sink.hold bytes)

/-- Write bytes. The waiting bytes go first when there is no room behind them. The answer says
whether the sink took all. -/
def write (sink : ByteSink) (bytes : List UInt8) : Bool × ByteSink :=
  let spare := sink.bufferSize - sink.waiting.length
  if bytes.length < spare then (true, sink.hold bytes)
  else if bytes.length ≤ spare then sink.take bytes
  else match sink.drain with
    | (false, sink) => (false, sink)
    | (true, sink) => sink.take bytes

/-- Flush: the waiting bytes arrive. Gives the reason of a refusal. -/
def flush (sink : ByteSink) : Except String Unit × ByteSink :=
  match sink.drain with
  | (false, sink) => (.error sink.refusal, sink)
  | (true, sink) =>
      match sink.flushRefusal with
      | some reason => (.error reason, sink)
      | none => (.ok (), sink)

/-- Without a buffer, a write puts the bytes that fit behind those that arrived before. -/
theorem accepted_write_limited {sink : ByteSink} (direct : sink.bufferSize = 0)
    (idle : sink.waiting = []) (bytes : List UInt8) :
    (sink.write bytes).2.accepted = sink.accepted ++ match sink.room with
      | none => bytes
      | some room => bytes.take room := by
  cases sink with
  | mk accepted room refusal flushRefusal bufferSize waiting =>
      subst direct idle
      cases room <;> cases bytes <;> simp [write, drain, take, arrive]

end ByteSink

end HostPruning.Events
