import HostPruning.CommandLine.Execution
import HostPruning.Database.Snapshot

/-!
# The footprint of a command

A command is carried out on a directory that holds only the files the command can meet.
Which these are is known from the invocation, but for the event file, which the settings
name. Afterwards only the files that differ are written back.
-/

namespace HostPruning.CommandLine

/-- The files that a command on hosts and policies is told to use. -/
def InventoryCommand.paths : InventoryCommand → List String
  | .importHosts input _ => [input]
  | .prune request => request.eventsOut.toList
  | _ => []

/-- The files that an invocation names, and those of standard names that it looks for. -/
def Invocation.paths (invocation : Invocation) (environment : Environment) : List String :=
  match invocation.command with
  | .schema _ => [invocation.database]
  | .inventory command =>
      [invocation.database, (environment.namedSettings invocation.settings).getD standardSettingsFile] ++
        command.paths

/-- The event file that the settings name. -/
def Invocation.eventPaths (invocation : Invocation) (environment : Environment)
    (directory : Directory) : List String :=
  match loadSettings environment directory invocation.settings with
  | .ok settings =>
      match settings.delivery with
      | .journal path => [path]
      | .broker _ => []
  | .error _ => []

/-- What the bytes of a file are. -/
def FileEntry.ofBytes (bytes : List UInt8) : FileEntry :=
  match Database.ofSnapshot? bytes with
  | some content => .database content
  | none => .bytes bytes

/-- The bytes that a file is kept as. -/
def FileEntry.kept : FileEntry → Option (List UInt8)
  | .bytes content => some content
  | .database content => some content.snapshot
  | .device _ _ => none

/-- Take a folder into a directory. -/
def Directory.withFolder (directory : Directory) (path : String) : Directory :=
  { directory with folders := Directory.normal path :: directory.folders }

/-- The bytes kept under a path. -/
def Directory.kept? (directory : Directory) (name : String) : Option (List UInt8) :=
  (directory.files.get? name).bind FileEntry.kept

/-- The files that differ from those of an earlier directory, with their bytes. -/
def Directory.changesSince (after before : Directory) : List (String × List UInt8) :=
  after.files.entries.filterMap fun (name, entry) =>
    match entry.kept with
    | none => none
    | some bytes => if before.kept? name = some bytes then none else some (name, bytes)

end HostPruning.CommandLine
