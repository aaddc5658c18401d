import HostPruning.CommandLine.Arguments
import HostPruning.Lifecycle
import HostPruning.Pruning.Options

/-!
# Commands

The commands of the program with their options, and the reading of a command line into one
of them. Values are checked as they are read; an option that is required shows as missing at
the end.
-/

namespace HostPruning.CommandLine

/-- Changes to three offsets. -/
structure OffsetsChange where
  stale : Option Int
  warning : Option Int
  delete : Option Int

/-- Offsets after a change; what is not given stays. -/
def OffsetsChange.apply (change : OffsetsChange) (offsets : Lifecycle.Offsets) : Lifecycle.Offsets :=
  ⟨change.stale.getD offsets.stale, change.warning.getD offsets.warning, change.delete.getD offsets.delete⟩

/-- What a run is asked to do. -/
structure RunRequest where
  account : Option String
  chunkSize : Option Nat
  dryRun : Bool
  eventsOut : Option String
  emitFailure : Option Pruning.EmitFailure
  excludeCulled : Bool

/-- A command on the tables of a database. -/
inductive SchemaCommand where
  | version
  | migrate (dryRun : Bool)
  | integrityCheck

/-- A command on the hosts and policies in a database. -/
inductive InventoryCommand where
  | importHosts (input : String) (skipExisting : Bool)
  | listHosts (account : Option String)
  | hostStatus (account : Option String)
  | setPolicy (account : String) (conventional immutable : OffsetsChange)
  | showPolicies (account : Option String)
  | prune (request : RunRequest)

/-- A command. -/
inductive Command where
  | schema (command : SchemaCommand)
  | inventory (command : InventoryCommand)

/-- A command with the database and the settings file it works on. -/
structure Invocation where
  database : String
  settings : Option String
  command : Command

/-- The database where none is named. -/
def standardDatabase : String := "./host_inventory.sqlite3"

/-- The number of digits; none when a character is no digit. -/
def digits? (chars : List Char) : Option Nat :=
  if chars.isEmpty || ! chars.all Char.isDigit then none
  else some (chars.foldl (fun total digit => total * 10 + (digit.toNat - 48)) 0)

/-- An unsigned integer of 64 bits, perhaps with a plus sign. -/
def count? (text : String) : Option Nat :=
  (match text.toList with
    | '+' :: rest => digits? rest
    | chars => digits? chars).bind fun value => if value < Width.count 64 then some value else none

/-- A signed integer of 64 bits. -/
def integer? (text : String) : Option Int :=
  (match text.toList with
    | '-' :: rest => (digits? rest).map fun size => -(size : Int)
    | '+' :: rest => (digits? rest).map fun size => (size : Int)
    | chars => (digits? chars).map fun size => (size : Int)).bind fun value =>
      if Width.holdsSigned 64 value then some value else none

/-- A path has at least one character. -/
def isPath (text : String) : Bool := ! text.isEmpty

/-- Any text at all. -/
def anyText (_ : String) : Bool := true

/-- Whether a text is a signed integer. -/
def isInteger (text : String) : Bool := (integer? text).isSome

/-- A command without commands below it. -/
def leaf (flags : List String) (valued : List (String × (String → Bool))) : Level := ⟨flags, valued, []⟩

/-- A command that only has commands below it. -/
def branch (commands : List (String × Level)) : Level := ⟨[], [], commands⟩

/-- The options that change the offsets of a kind of hosts. -/
def offsetOptions (kind : String) : List (String × (String → Bool)) :=
  ["stale", "stale-warning", "delete"].map fun boundary =>
    (kind ++ "-time-to-" ++ boundary, isInteger)

/-- The options that choose an account. -/
def accountOption : List (String × (String → Bool)) := [("account", anyText)]

/-- The options of a run. -/
def runLevel : Level :=
  leaf ["dry-run", "exclude-culled"]
    (accountOption ++
      [("chunk-size", fun text => (count? text).isSome),
       ("events-out", isPath),
       ("on-emit-failure", fun text => (Pruning.EmitFailure.parse text).isSome)])

/-- The tree of commands. -/
def program : Level where
  flags := []
  valued := [("db", isPath), ("config", isPath)]
  commands :=
    [("db", branch
      [("schema-version", leaf [] []), ("migrate", leaf ["dry-run"] []), ("integrity-check", leaf [] [])]),
     ("hosts", branch
      [("import", leaf ["skip-existing"] [("in", isPath)]), ("list", leaf [] accountOption),
       ("status", leaf [] accountOption)]),
     ("staleness", branch
      [("set", leaf [] (accountOption ++ offsetOptions "conventional" ++ offsetOptions "immutable")),
       ("show", leaf [] accountOption)]),
     ("dedup", branch [("run", runLevel)])]

/-- Go down the tree: the names of the commands, and the options of the first and the last level. -/
def descend : (depth : Nat) → Level → List String → Except Halt (List String × Given)
  | 0, _, _ => .error .misuse
  | depth + 1, level, arguments =>
      match level.read arguments with
      | .error halt => .error halt
      | .ok (given, []) => .ok ([], given)
      | .ok (_, name :: rest) =>
          match level.commands.lookup name with
          | none => .error .misuse
          | some below => (descend depth below rest).map fun (names, given) => (name :: names, given)

/-- The changes that options ask for. -/
def offsetsChange (kind : String) (given : Given) : OffsetsChange :=
  let value (boundary : String) := (given.value? (kind ++ "-time-to-" ++ boundary)).bind integer?
  ⟨value "stale", value "stale-warning", value "delete"⟩

/-- The run that options ask for. -/
def runRequest (given : Given) : RunRequest where
  account := given.value? "account"
  chunkSize := (given.value? "chunk-size").bind count?
  dryRun := given.has "dry-run"
  eventsOut := given.value? "events-out"
  emitFailure := (given.value? "on-emit-failure").bind Pruning.EmitFailure.parse
  excludeCulled := given.has "exclude-culled"

/-- The command on tables of a name and options. -/
def schemaCommand? (name : String) (given : Given) : Option SchemaCommand :=
  match name with
  | "schema-version" => some .version
  | "migrate" => some (.migrate (given.has "dry-run"))
  | "integrity-check" => some .integrityCheck
  | _ => none

/-- The command on hosts and policies of two names and options; none when a required option is
missing. -/
def inventoryCommand? (group name : String) (given : Given) : Option InventoryCommand :=
  match group, name with
  | "hosts", "import" =>
      (given.value? "in").map fun input => .importHosts input (given.has "skip-existing")
  | "hosts", "list" => some (.listHosts (given.value? "account"))
  | "hosts", "status" => some (.hostStatus (given.value? "account"))
  | "staleness", "set" =>
      (given.value? "account").map fun account =>
        .setPolicy account (offsetsChange "conventional" given) (offsetsChange "immutable" given)
  | "staleness", "show" => some (.showPolicies (given.value? "account"))
  | "dedup", "run" => some (.prune (runRequest given))
  | _, _ => none

/-- The command of some names and options. -/
def command? (names : List String) (given : Given) : Option Command :=
  match names with
  | ["db", name] => (schemaCommand? name given).map .schema
  | [group, name] => (inventoryCommand? group name given).map .inventory
  | _ => none

/-- Read a command line. -/
def Invocation.ofArguments (arguments : List String) : Except Halt Invocation :=
  match program.read arguments with
  | .error halt => .error halt
  | .ok (given, rest) =>
      match descend 3 (branch program.commands) rest with
      | .error halt => .error halt
      | .ok (names, options) =>
          match command? names options with
          | none => .error .misuse
          | some command =>
              .ok ⟨(given.value? "db").getD standardDatabase, given.value? "config", command⟩

end HostPruning.CommandLine
