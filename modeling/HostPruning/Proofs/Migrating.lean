import HostPruning.Proofs.Representation

/-!
# Databases at a supported version

A database is supported when this library knows the version it is at and the tables of that
version are there (`Supported`). Migrating one succeeds, brings it to the latest version and keeps
every row and every policy (`Supported.migrate`); migrating it again does nothing
(`Brought.migrate_eq`).
-/

namespace HostPruning.Database

variable {before database next : Database} {version : Int}

/-- A database at a version of this library, with the tables of that version. -/
structure Supported (database : Database) : Prop where
  known : 0 ≤ database.currentVersion
  notNewer : database.currentVersion ≤ latestVersion
  hosts : 1 ≤ database.currentVersion → database.hosts.isSome = true
  policies : 2 ≤ database.currentVersion → database.policies.isSome = true

/-! ### Recording versions -/

@[simp]
theorem hosts_recordVersion : (recordVersion version database).hosts = database.hosts := by
  unfold recordVersion
  dsimp only
  split <;> rfl

@[simp]
theorem policies_recordVersion : (recordVersion version database).policies = database.policies := by
  unfold recordVersion
  dsimp only
  split <;> rfl

@[simp]
theorem currentVersion_withVersions : database.withVersions.currentVersion = database.currentVersion :=
  rfl

theorem le_currentVersion (recorded : version ∈ database.versions.getD []) :
    version ≤ database.currentVersion := by
  unfold currentVersion
  split
  next nothing => simp [List.max?_eq_none_iff.1 nothing] at recorded
  next greatest found => exact (List.max?_eq_some_iff.1 found).2 version recorded

/-- A version above all others is recorded and becomes the current one. -/
theorem recordVersion_spec (above : database.currentVersion < version) :
    (recordVersion version database).versions.isSome = true ∧
      (recordVersion version database).currentVersion = version := by
  have fresh : version ∉ database.versions.getD [] := fun recorded =>
    Int.not_lt.2 (le_currentVersion recorded) above
  have greatest : (database.versions.getD [] ++ [version]).max? = some version := by
    refine List.max?_eq_some_iff.2 ⟨by simp, fun other among => ?_⟩
    rcases List.mem_append.1 among with earlier | last
    · exact Int.le_of_lt (Int.lt_of_le_of_lt (le_currentVersion earlier) above)
    · exact Int.le_of_eq (List.mem_singleton.1 last)
  simp [recordVersion, fresh, currentVersion, greatest]

/-! ### Migrating -/

/-- What is left of a database that was brought to a version: its rows, in the tables of that version. -/
structure Brought (before : Database) (version : Int) (database : Database) : Prop where
  versions : database.versions.isSome = true
  current : database.currentVersion = version
  hosts : database.hosts.getD [] = before.hosts.getD []
  policies : database.policies.getD ∅ = before.policies.getD ∅
  hostsThere : 1 ≤ version → database.hosts.isSome = true
  policiesThere : 2 ≤ version → database.policies.isSome = true

/-- Tables of versions aside, a supported database is at its version already. -/
theorem Supported.brought (supported : database.Supported) :
    Brought database database.currentVersion database.withVersions :=
  ⟨rfl, rfl, rfl, rfl, supported.hosts, supported.policies⟩

namespace Brought

/-- One migration brings a database from a version to the next. -/
theorem step (brought : Brought before version database) (known : 0 ≤ version)
    (below : version < latestVersion) :
    ∃ next, applyMigration (version + 1) database = .ok next ∧ Brought before (version + 1) next := by
  obtain rfl | rfl : version = 0 ∨ version = 1 := by
    unfold latestVersion at below
    omega
  · have above : { database with hosts := some (database.hosts.getD []) }.currentVersion < 1 :=
      Int.lt_of_le_of_lt (Int.le_of_eq brought.current) Int.zero_lt_one
    obtain ⟨versions, current⟩ := recordVersion_spec above
    refine ⟨_, rfl, versions, current, ?_, ?_, ?_, ?_⟩
    · simpa using brought.hosts
    · simpa using brought.policies
    · simp
    · omega
  · have above : { database with policies := some (database.policies.getD ∅) }.currentVersion < 2 :=
      Int.lt_of_le_of_lt (Int.le_of_eq brought.current) (by decide)
    obtain ⟨versions, current⟩ := recordVersion_spec above
    refine ⟨_, rfl, versions, current, ?_, ?_, ?_, ?_⟩
    · simpa using brought.hosts
    · simpa using brought.policies
    · simpa using brought.hostsThere
    · simp

/-- The last migrations bring a database to the latest version. -/
theorem applyLast {count : Nat} (brought : Brought before (latestVersion - count) database)
    (known : (count : Int) ≤ latestVersion) :
    (Database.applyLast count database).1 = .ok () ∧
      Brought before latestVersion (Database.applyLast count database).2 := by
  induction count generalizing database with
  | zero => exact ⟨rfl, by simpa [Database.applyLast] using brought⟩
  | succ remaining inductionHypothesis =>
      obtain ⟨next, applied, further⟩ := brought.step (by omega) (by omega)
      have number : latestVersion - (remaining + 1 : Nat) + 1 = latestVersion - (remaining : Int) := by omega
      rw [number] at applied further
      rw [Database.applyLast, applied]
      exact inductionHypothesis further (by omega)

variable {after : Database}

theorem hosts_eq (brought : Brought before latestVersion after) :
    after.hosts = some (before.hosts.getD []) := by
  obtain ⟨rows, stored⟩ := Option.isSome_iff_exists.1 (brought.hostsThere (by decide))
  rw [← brought.hosts, stored, Option.getD_some]

theorem supported (brought : Brought before latestVersion after) : after.Supported where
  known := by rw [brought.current]; decide
  notNewer := Int.le_of_eq brought.current
  hosts _ := brought.hostsThere (by decide)
  policies _ := brought.policiesThere (by decide)

/-- Migrating a database at the latest version does nothing. -/
theorem migrate_eq (brought : Brought before latestVersion after) : after.migrate = (.ok (), after) := by
  obtain ⟨versions, recorded⟩ := Option.isSome_iff_exists.1 brought.versions
  have same : after.withVersions = after := by
    rw [withVersions, recorded, Option.getD_some, ← recorded]
  simp [migrate, same, brought.current, Database.applyLast]

end Brought

/-- Migrating a supported database succeeds and keeps its rows. -/
theorem Supported.migrate (supported : database.Supported) :
    database.migrate.1 = .ok () ∧ Brought database latestVersion database.migrate.2 := by
  have known := supported.known
  have notNewer := supported.notNewer
  have count : ((latestVersion - database.currentVersion).toNat : Int) =
      latestVersion - database.currentVersion := Int.toNat_of_nonneg (by omega)
  have begun : Brought database (latestVersion - (latestVersion - database.currentVersion).toNat)
      database.withVersions := by
    rw [count, Int.sub_sub_self]
    exact supported.brought
  rw [Database.migrate, currentVersion_withVersions, if_neg (Int.not_lt.2 notNewer)]
  exact begun.applyLast (by omega)

/-! ### Changes -/

namespace Supported

/-- A database stays supported while its versions stay and no table goes. -/
theorem change (supported : database.Supported) (versions : next.versions = database.versions)
    (hosts : database.hosts.isSome = true → next.hosts.isSome = true)
    (policies : database.policies.isSome = true → next.policies.isSome = true) : next.Supported := by
  have current : next.currentVersion = database.currentVersion := by
    rw [currentVersion, currentVersion, versions]
  obtain ⟨known, notNewer, hostsThere, policiesThere⟩ := supported
  rw [← current] at known notNewer hostsThere policiesThere
  exact ⟨known, notNewer, fun first => hosts (hostsThere first),
    fun second => policies (policiesThere second)⟩

theorem schemaStatus (supported : database.Supported) : database.schemaStatus.2.Supported :=
  ⟨supported.known, supported.notNewer, supported.hosts, supported.policies⟩

theorem insertHost {host : Host} (supported : database.Supported)
    (taken : database.insertHost host = .ok next) : next.Supported := by
  obtain ⟨row, -, inserted⟩ := insertRow_of_insertHost taken
  cases stored : database.hosts with
  | none => simp [insertRow, stored] at inserted
  | some rows =>
      obtain ⟨-, rfl⟩ := fresh_of_insertRow stored inserted
      exact supported.change rfl (fun _ => rfl) id

theorem removeHost {id : HostId} {removal : Removal} (supported : database.Supported)
    (taken : database.removeHost id = .ok (removal, next)) : next.Supported := by
  cases stored : database.hosts with
  | none => simp [Database.removeHost, Database.rows, stored] at taken
  | some rows =>
      simp only [Database.removeHost, Database.rows, stored] at taken
      split at taken
      · cases taken
        exact supported.change rfl (fun _ => rfl) fun there => there
      · cases taken
        exact supported

theorem setPolicy {account updatedAt : String} {policy : Lifecycle.Policy} (supported : database.Supported)
    (taken : database.setPolicy account policy updatedAt = .ok next) : next.Supported := by
  obtain ⟨-, -, table, -, rfl⟩ := setPolicy_eq_ok_iff.1 taken
  exact supported.change rfl id fun _ => rfl

end Supported

end HostPruning.Database
