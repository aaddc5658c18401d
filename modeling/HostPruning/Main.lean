import HostPruning.CommandLine.Footprint
import HostPruning.Events.Publisher
import Std.Time.DateTime.Timestamp

/-!
# The program

The program looks at the files that its command line and its settings name, carries the
command out on them, writes back what changed, and prints the report. Everything it decides
is decided by `Invocation.carryOut`. It opens no connection, so a broker is never reached,
and it listens to no signal.
-/

namespace HostPruning.CommandLine

/-- The variable of the environment that names a settings file. -/
def settingsVariable : String := "HOST_DEDUP_CONFIG"

/-- What the program prints when it is asked for help or called in a wrong way. -/
def usage : String :=
  Text.join "\n"
    ["Duplicate host pruning for a multi-tenant host inventory", "",
     "Usage: hostdedup [--db FILE] [--config FILE] COMMAND", "",
     "Commands:",
     "  db schema-version",
     "  db migrate [--dry-run]",
     "  db integrity-check",
     "  hosts import --in FILE [--skip-existing]",
     "  hosts list [--account ACCOUNT]",
     "  hosts status [--account ACCOUNT]",
     "  staleness set --account ACCOUNT [--KIND-time-to-BOUNDARY SECONDS ...]",
     "  staleness show [--account ACCOUNT]",
     "  dedup run [--account ACCOUNT] [--chunk-size COUNT] [--dry-run] [--events-out FILE]",
     "            [--on-emit-failure continue|abort] [--exclude-culled]"]

/-- The exit code of a command that failed. -/
def failureCode : UInt32 := 1

/-- The exit code of a command line that is not well formed. -/
def misuseCode : UInt32 := 2

/-- The environment the program runs in. -/
def currentEnvironment : IO Environment := do
  let timestamp ← Std.Time.Timestamp.now
  return {
    now := Moment.ofUnixNanos timestamp.toNanosecondsSinceUnixEpoch.val
    settingsFile := ← IO.getEnv settingsVariable
    stopRequested := false
    brokerNotices := Events.Publisher.unreachable }

/-- Whether an action fails. -/
def fails (action : IO Unit) : IO Bool := do
  try
    action
    return false
  catch _ => return true

/-- Open a file and read its first byte. -/
def readFirst (path : String) : IO Unit := do
  discard ((← IO.FS.Handle.mk path .read).read 1)

/-- Whether a path is a folder: it can be opened, but nothing can be read from it. -/
def seesFolder (path : String) : IO Bool := do
  if ← fails (discard (IO.FS.Handle.mk path .read)) then return false
  fails (readFirst path)

/-- Take a folder into a directory when there is one of a path. -/
def lookAtFolder (path : String) (directory : Directory) : IO Directory := do
  return if ← seesFolder path then directory.withFolder path else directory

/-- Take what is stored under a path into a directory, and the folder it lies in. -/
def lookAt (directory : Directory) (path : String) : IO Directory := do
  let directory ← lookAtFolder (Directory.parent path) (← lookAtFolder path directory)
  match directory.locate path with
  | .error _ => return directory
  | .ok name =>
      if (directory.entry? path).isSome then return directory
      try return directory.put name (.ofBytes (← IO.FS.readBinFile name).toList)
      catch _ => return directory

/-- Carry out a command on the files of the folder the program runs in. -/
def Invocation.perform (invocation : Invocation) (environment : Environment) :
    IO (Except CommandFault Json) := do
  let named ← (invocation.paths environment).foldlM lookAt Directory.standard
  let directory ← (invocation.eventPaths environment named).foldlM lookAt named
  let (answer, after) := invocation.carryOut environment directory
  for (name, bytes) in after.changesSince directory do
    IO.FS.writeBinFile name ⟨bytes.toArray⟩
  return answer

/-- Read the command line, carry the command out, and print what came of it. -/
def runProgram (arguments : List String) : IO UInt32 := do
  match Invocation.ofArguments arguments with
  | .error .help =>
      IO.println usage
      return 0
  | .error .misuse =>
      IO.eprintln usage
      return misuseCode
  | .ok invocation =>
      match ← invocation.perform (← currentEnvironment) with
      | .ok report =>
          IO.println report.renderIndented
          return 0
      | .error fault =>
          IO.eprintln ("Error: " ++ fault.message)
          return failureCode

end HostPruning.CommandLine

/-- The program. -/
def main (arguments : List String) : IO UInt32 := HostPruning.CommandLine.runProgram arguments
