import HostPruning.Store

/-!
# Recording events

A recorder is an emitter that keeps every event it is given. It refuses the events of
chosen hosts, and it can raise a stop flag once it holds a number of events.
-/

namespace HostPruning.Rehearsal

/-- A recorder and what it holds. -/
structure Recorder where
  /-- The events taken, first one first. -/
  events : List (HostId × DeleteEvent)
  /-- The hosts whose events are refused. -/
  refused : List HostId
  /-- The number of events at which the stop flag is raised. -/
  stopAfter : Option Nat
  stopRaised : Bool
  /-- The number of flushes. -/
  flushes : Nat

namespace Recorder

/-- A recorder without events. -/
def start (refused : List HostId) (stopAfter : Option Nat) : Recorder := ⟨[], refused, stopAfter, false, 0⟩

/-- The words of a refusal. -/
def refusal : String := "recording emitter configured to fail"

/-- Whether the events held are as many as the stop flag waits for. -/
def reached (recorder : Recorder) : Bool :=
  match recorder.stopAfter with
  | none => false
  | some count => count ≤ recorder.events.length

/-- Keep one event; the flag stays up once it is raised. -/
def keep (key : HostId) (event : DeleteEvent) (recorder : Recorder) : Recorder :=
  let recorder := { recorder with events := recorder.events ++ [(key, event)] }
  { recorder with stopRaised := recorder.stopRaised || recorder.reached }

/-- Take one event unless its host is refused. -/
def emit (key : HostId) (event : DeleteEvent) : Call Recorder Unit := fun recorder =>
  if recorder.refused.contains key then (.error (.emission key (.reported refusal)), recorder)
  else (.ok (), recorder.keep key event)

/-- Count a flush. -/
def flush : Call Recorder Unit := fun recorder =>
  (.ok (), { recorder with flushes := recorder.flushes + 1 })

/-- A recorder as an emitter. -/
def emitter : Emitter Recorder := ⟨emit, flush⟩

end Recorder

end HostPruning.Rehearsal
