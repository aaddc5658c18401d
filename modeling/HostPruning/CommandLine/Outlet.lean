import HostPruning.CommandLine.Directory
import HostPruning.Events.Journal
import HostPruning.Events.Publisher
import HostPruning.Settings

/-!
# Outlets of a run

The events of a run leave through one outlet: nowhere, into a file, or to a broker. A file
is emptied when the outlet is opened, and gets its bytes when the outlet is closed.
-/

namespace HostPruning.CommandLine

/-- The way events leave a run. -/
inductive Outlet where
  | nowhere
  /-- Into a file: the path it was opened by, and where it is stored. -/
  | journal (path name : String) (lines : Events.Journal)
  | broker (publisher : Events.Publisher)

namespace Outlet

/-- Open a file for events, emptying it. A device is left as it is. -/
def openJournal (path : String) (directory : Directory) : Except SettingDefect (Outlet × Directory) :=
  match directory.locate path with
  | .error fault => .error (.eventFile path fault.message)
  | .ok name =>
      match directory.files.get? name with
      | some (.device room refusal) => .ok (.journal path name (.onto (.file room refusal)), directory)
      | _ => .ok (.journal path name (.onto (.file none "")), directory.put name (.bytes []))

/-- Open the outlet of a delivery. -/
def ofDelivery (delivery : Delivery) (directory : Directory) :
    Except SettingDefect (Outlet × Directory) :=
  match delivery with
  | .journal path => openJournal path directory
  | .broker settings =>
      (Events.Publisher.start settings).map fun publisher => (.broker publisher, directory)

/-- What is said about an outlet in a report. -/
def toJson : Outlet → Json
  | .nowhere => .object [("sink", .string "none")]
  | .journal path _ lines =>
      .object
        [("sink", .string "ndjson"), ("path", .string path), ("written", .ofNat lines.written)]
  | .broker publisher =>
      .object [("sink", .string "mqtt"), ("published", .ofNat publisher.published)]

/-- Hand over an event. -/
def emit (key : HostId) (event : DeleteEvent) : Call Outlet Unit
  | .nowhere => (.ok (), .nowhere)
  | .journal path name lines =>
      let (answer, lines) := lines.emit key event
      (answer, .journal path name lines)
  | .broker publisher =>
      let (answer, publisher) := publisher.emit key event
      (answer, .broker publisher)

/-- Wait until what was handed over is delivered. -/
def flush (notices : List Events.Notice) : Call Outlet Unit
  | .nowhere => (.ok (), .nowhere)
  | .journal path name lines =>
      let (answer, lines) := lines.flush
      (answer, .journal path name lines)
  | .broker publisher =>
      let (answer, publisher) := publisher.flush notices
      (answer, .broker publisher)

/-- An outlet as an emitter; the notices are what a broker's connection reports. -/
def emitter (notices : List Events.Notice) : Emitter Outlet := ⟨emit, flush notices⟩

/-- Close an outlet at the end of a run: a broker has to answer for all events. -/
def close (notices : List Events.Notice) (outlet : Outlet) : Except Failure Unit :=
  match outlet with
  | .broker publisher => (publisher.flush notices).1
  | _ => .ok ()

/-- Store what arrived in a file. Bytes that wait get their last chance. -/
def keep (outlet : Outlet) (directory : Directory) : Directory :=
  match outlet with
  | .journal _ name lines =>
      match directory.files.get? name with
      | some (.device _ _) => directory
      | _ => directory.put name (.bytes lines.sink.drain.2.accepted)
  | _ => directory

end Outlet

end HostPruning.CommandLine
