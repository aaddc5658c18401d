import HostPruning.Database.Row
import HostPruning.Lifecycle
import HostPruning.Ordered

/-!
# The database and its schema

The database has three tables, and each may be missing: the versions applied so far, the
hosts, and the lifecycle policies of accounts. Migrations bring it forward one version at
a time; a database that is newer than this library is refused.
-/

namespace HostPruning

/-- A policy stored for an account, with the time it was stored. -/
structure StoredPolicy where
  policy : Lifecycle.Policy
  updatedAt : String

namespace StoredPolicy

/-- What the table asks of the offsets of a kind of hosts: they are positive and in order. It sets them
no bound. -/
def takes (offsets : Lifecycle.Offsets) : Bool :=
  0 < offsets.stale && (offsets.stale ≤ offsets.warning && offsets.warning ≤ offsets.delete)

/-- The table's checks. -/
def admissible (stored : StoredPolicy) : Bool :=
  takes stored.policy.conventional && takes stored.policy.immutable

end StoredPolicy

/-- The tables of a database. -/
structure Database where
  versions : Option (List Int)
  hosts : Option (List Database.HostRow)
  policies : Option (Table String StoredPolicy)

namespace Database

/-- A database without tables. -/
def empty : Database := ⟨none, none, none⟩

instance : Inhabited Database := ⟨empty⟩

/-- The schema version this library works with. -/
def latestVersion : Int := 2

/-- Create the table of versions unless it is there. -/
def withVersions (database : Database) : Database :=
  { database with versions := some (database.versions.getD []) }

/-- The greatest version applied, or zero. -/
def currentVersion (database : Database) : Int :=
  match (database.versions.getD []).max? with
  | none => 0
  | some version => version

/-- The versions from one after `current` to the latest. -/
def pendingAfter (current : Int) : List Int :=
  (List.range (latestVersion - current).toNat).map fun (step : Nat) => current + 1 + (step : Int)

/-- Where a database stands. -/
structure SchemaStatus where
  current : Int
  target : Int
  pending : List Int
deriving DecidableEq

/-- Encode a status. -/
def SchemaStatus.toJson (status : SchemaStatus) : Json :=
  .object
    [("current_version", .ofInt status.current), ("target_version", .ofInt status.target),
     ("pending_versions", .array (status.pending.map .ofInt))]

/-- Whether nothing is left to apply. -/
def SchemaStatus.upToDate (status : SchemaStatus) : Bool := status.pending.isEmpty

/-- Where the database stands. Asking creates the table of versions. -/
def schemaStatus (database : Database) : SchemaStatus × Database :=
  let database := database.withVersions
  let current := database.currentVersion
  (⟨current, latestVersion, pendingAfter current⟩, database)

/-- Record a version unless it is recorded already. -/
def recordVersion (version : Int) (database : Database) : Database :=
  let versions := database.versions.getD []
  if versions.contains version then database
  else { database with versions := some (versions ++ [version]) }

/-- Apply one migration: version 1 creates the hosts, version 2 the policies. -/
def applyMigration (version : Int) (database : Database) : Except DatabaseFault Database :=
  if version = 1 then
    .ok (recordVersion 1 { database with hosts := some (database.hosts.getD []) })
  else if version = 2 then
    .ok (recordVersion 2 { database with policies := some (database.policies.getD ∅) })
  else .error (.unknownMigration version)

/-- Apply the last migrations up to the latest version, in order; what was applied before a
failure stays applied. -/
def applyLast : (count : Nat) → Database → Except DatabaseFault Unit × Database
  | 0, database => (.ok (), database)
  | remaining + 1, database =>
      match applyMigration (latestVersion - remaining) database with
      | .error fault => (.error fault, database)
      | .ok database => applyLast remaining database

/-- Bring the database to the latest version. -/
def migrate (database : Database) : Except DatabaseFault Unit × Database :=
  let database := database.withVersions
  let current := database.currentVersion
  if latestVersion < current then (.error (.newerSchema current latestVersion), database)
  else applyLast (latestVersion - current).toNat database

/-- Record a version from outside; refused when it is there or the table is not. -/
def insertVersion (version : Int) (database : Database) : Option Database :=
  match database.versions with
  | none => none
  | some versions =>
      if versions.contains version then none
      else some { database with versions := some (versions ++ [version]) }

/-- What the integrity probes found. -/
structure IntegrityReport where
  nonObjectRows : Nat
  status : SchemaStatus
deriving DecidableEq

/-- Encode a report. The tables are consistent by construction, so the quick check passes. -/
def IntegrityReport.toJson (report : IntegrityReport) : Json :=
  .object
    [("quick_check_ok", .bool true), ("quick_check_message", .string "ok"),
     ("non_object_fact_rows", .ofNat report.nonObjectRows),
     ("schema_status", report.status.toJson)]

/-- Probe the database: how many rows have facts that are not an object, and where the schema
stands. -/
def integrityCheck (database : Database) : IntegrityReport × Database :=
  let (status, database) := database.schemaStatus
  let rows := database.hosts.getD []
  (⟨(rows.filter fun row => row.stored.kind ≠ .object).length, status⟩, database)

end Database

end HostPruning
