import HostPruning.CommandLine.Environment
import HostPruning.Database.Import
import HostPruning.Database.Store

/-!
# Reports

Every command answers with one JSON object, which also names the version of the form of all
reports. Reports on hosts need a text for every moment in them.
-/

namespace HostPruning.CommandLine

/-- The version of the form of all reports. -/
def reportVersion : String := "cli.v1"

/-- A report with the version of its form. -/
def versioned : Json → Json
  | .object members => .object (members ++ [("contract_version", .string reportVersion)])
  | report => .object [("contract_version", .string reportVersion), ("payload", report)]

/-- A list of schema versions. -/
def versionsToJson (versions : List Int) : Json := .array (versions.map .ofInt)

/-- Report where a database stands. -/
def statusReport (status : Database.SchemaStatus) : Json :=
  .object
    [("current_version", .ofInt status.current), ("target_version", .ofInt status.target),
     ("pending_versions", versionsToJson status.pending), ("up_to_date", .bool status.upToDate)]

/-- Report what a migration would do. -/
def forecastReport (status : Database.SchemaStatus) : Json :=
  .object
    [("dry_run", .bool true), ("current_version", .ofInt status.current),
     ("target_version", .ofInt status.target),
     ("would_apply_versions", versionsToJson status.pending)]

/-- Report a migration by where the database stood before it and stands after it. -/
def migrationReport (before after : Database.SchemaStatus) : Json :=
  .object
    [("dry_run", .bool false), ("before_version", .ofInt before.current),
     ("applied_versions", versionsToJson before.pending), ("after_version", .ofInt after.current),
     ("target_version", .ofInt after.target), ("up_to_date", .bool after.upToDate)]

/-- Report an import. -/
def importReport (input : String) (skipExisting : Bool) (summary : Database.ImportSummary) : Json :=
  .object
    [("in_file", .string input), ("skip_existing", .bool skipExisting), ("summary", summary.toJson)]

/-- Encode hosts, of which each has to have a text for its moments. -/
def encodeHosts (encode : Host → Option Json) (hosts : List Host) : Except DatabaseFault Json :=
  match hosts.mapM encode with
  | none => .error .staleWithoutText
  | some encoded => .ok (.array encoded)

/-- Report hosts. -/
def hostsReport (hosts : List Host) : Except DatabaseFault Json :=
  (encodeHosts Host.toJson hosts).map fun hosts => .object [("hosts", hosts)]

/-- The clock of a host: a policy stored for its account takes the place of the settings'. -/
def hostClock (database : Database) (clock : Lifecycle.Clock) (host : Host) :
    Except DatabaseFault Lifecycle.Clock :=
  (database.policyOf host.account).map fun
    | some stored => clock.withPolicy stored.policy
    | none => clock

/-- Encode where a host is in its lifecycle. -/
def lifecycleToJson (clock : Lifecycle.Clock) (host : Host) : Option Json := do
  let boundaries ← (clock.boundaries host.staleTimestamp host.kind).toJson
  return .object
    [("id", .ofHostId host.id), ("account", .string host.account),
     ("host_type", .string host.kind.name),
     ("state", .string (clock.stateOf host.staleTimestamp host.kind).name),
     ("timestamps", boundaries)]

/-- Report where hosts are in their lifecycles. -/
def lifecycleReport (environment : Environment) (settings : Settings) (database : Database)
    (hosts : List Host) : Except DatabaseFault Json := do
  let clocked ← hosts.mapM fun host =>
    (hostClock database ⟨environment.now, settings.policy⟩ host).map fun clock => (clock, host)
  match clocked.mapM fun (clock, host) => lifecycleToJson clock host with
  | none => .error .staleWithoutText
  | some encoded =>
      .ok (.object [("evaluated_at", .string environment.stamp), ("hosts", .array encoded)])

/-- Report a policy that was stored. -/
def policyReport (account : String) (policy : Lifecycle.Policy) : Json :=
  .object [("account", .string account), ("staleness", policy.toJson)]

/-- Report the policies in effect. -/
def policiesReport (settings : Settings) (stored : List (String × StoredPolicy)) : Json :=
  .object
    [("defaults", settings.policy.toJson),
     ("accounts", .array (stored.map fun (account, stored) => Database.policyToJson account stored))]

end HostPruning.CommandLine
