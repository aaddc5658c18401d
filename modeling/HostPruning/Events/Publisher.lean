import HostPruning.Events.Acknowledgement
import HostPruning.Events.Broker
import HostPruning.Store

/-!
# Publishing to a broker

Handing an event over only queues it; a flush waits for the answers to all events handed
over so far. Once the connection has failed, every further event is refused with the text
of the first failure.
-/

namespace HostPruning.Events

/-- Publishing in progress. -/
structure Publisher where
  broker : Broker
  tracker : Tracker
  /-- The number of events handed over. -/
  published : Nat

namespace Publisher

/-- Start publishing; the settings have to be valid. Nothing is sent yet. -/
def start (broker : Broker) : Except SettingDefect Publisher :=
  broker.validate.map fun _ => ⟨broker, .start, 0⟩

/-- Take a report of the connection into account. -/
def record (notice : Notice) (publisher : Publisher) : Publisher :=
  { publisher with tracker := publisher.tracker.record notice }

/-- What precedes the reason why a client does not queue an event. -/
def unqueued : String := "failed to queue publish: "

/-- Hand over an event to a client that queues it, or that says why it does not. A failed connection
comes first, and an event without a text never reaches the client. -/
def emitOver (queued : Except String Unit) (key : HostId) (event : DeleteEvent) :
    Call Publisher Unit := fun publisher =>
  match publisher.tracker.failure with
  | some message => (.error (.emission key (.reported message)), publisher)
  | none =>
      match event.toJson with
      | none => (.error (.emission key .encoding), publisher)
      | some _ =>
          match queued with
          | .error reason => (.error (.emission key (.reported (unqueued ++ reason))), publisher)
          | .ok () => (.ok (), { publisher with published := publisher.published + 1 })

/-- Hand over an event to a client that has room for it. -/
def emit : HostId → DeleteEvent → Call Publisher Unit := emitOver (.ok ())

/-- Wait for the answers to all events handed over. `arriving` is what the connection reports
during the wait; without an event nothing is waited for. -/
def flush (arriving : List Notice) : Call Publisher Unit := fun publisher =>
  if publisher.published = 0 then (.ok (), publisher)
  else
    let publisher := arriving.foldl (fun waiting notice => waiting.record notice) publisher
    match publisher.tracker.waitFor publisher.published publisher.broker.answerSeconds with
    | .ok _ => (.ok (), publisher)
    | .error fault => (.error (.flush (.reported fault.message)), publisher)

/-- What the connection to a broker that cannot be reached reports. -/
def unreachable : List Notice := [.failed "mqtt connection failed"]

/-- Publishing to a broker that cannot be reached. -/
def unreachableEmitter : Emitter Publisher := ⟨emit, flush unreachable⟩

end Publisher

end HostPruning.Events
