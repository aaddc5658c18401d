import HostPruning.Proofs.Importing
import HostPruning.Proofs.Refinement

/-!
# Databases whose hosts this library wrote

A database is `Furnished` when every row of its hosts was written by an insertion or an import;
what else happened to it, whether rows went, policies came or versions were recorded from outside,
does not matter. Then every row is that of a host the table took and no identifier has two
(`Furnished.authored`). So what a query decodes are hosts with accounts, no two of one identifier, and
with facts nested no deeper than those of a record (`authored_loadCandidates`).
-/

namespace HostPruning

/-- Whether a host can be published: it has an account, and its facts nest no deeper than a record's. -/
structure Host.Presentable (host : Host) : Prop where
  account : host.account ≠ ""
  facts : Json.Nested Json.Dialect.records.depth (.object host.facts)

namespace Database

open HostRow

/-- What this library makes of a database without hosts, whatever else becomes of it in between. -/
inductive Furnished : Database → Prop where
  | bare {database : Database} (noRows : database.hosts.getD [] = []) : Furnished database
  | insertHost {database next : Database} {host : Host} (furnished : Furnished database)
      (taken : database.insertHost host = .ok next) : Furnished next
  | importFile {database : Database} (furnished : Furnished database) (file : String)
      (content : Option (List Line)) (skipExisting : Bool) :
      Furnished (importFile file content skipExisting database).2
  /-- Anything that writes no row. -/
  | change {database next : Database} (furnished : Furnished database)
      (rows : (next.hosts.getD []).Sublist (database.hosts.getD [])) : Furnished next

/-- Whether all rows are those of hosts, no two of one identifier. -/
structure Authored (rows : List HostRow) : Prop where
  written : ∀ row ∈ rows, ∃ host, ofHost host = .ok row
  distinct : rows.Pairwise fun row other => row.id ≠ other.id

namespace Authored

variable {rows others : List HostRow} {row : HostRow} {host : Host}

theorem nil : Authored [] := ⟨by simp, List.Pairwise.nil⟩

theorem sublist (authored : Authored rows) (within : others.Sublist rows) : Authored others where
  written row among := authored.written row (within.subset among)
  distinct := authored.distinct.sublist within

theorem perm (authored : Authored rows) (same : rows.Perm others) : Authored others where
  written row among := authored.written row (same.mem_iff.2 among)
  distinct := List.Pairwise.perm authored.distinct same fun different => different.symm

/-- The row of a host of another identifier may come after them. -/
theorem concat (authored : Authored rows) (made : ofHost host = .ok row) (fresh : hasId rows row.id = false) :
    Authored (rows ++ [row]) where
  written := by
    rw [List.forall_mem_append]
    exact ⟨authored.written, by simpa using ⟨host, made⟩⟩
  distinct := by
    refine List.pairwise_append.2 ⟨authored.distinct, List.pairwise_singleton _ _, ?_⟩
    intro other among last isLast same
    rw [List.mem_singleton.1 isLast] at same
    have known : hasId rows row.id = true := List.any_eq_true.2 ⟨other, among, by simp [same]⟩
    rw [fresh] at known
    cases known

end Authored

variable {database next : Database} {host : Host}

/-! ### Changes -/

theorem sameStored_of_applyMigration {version : Int} (applied : applyMigration version database = .ok next) :
    SameStored database next := by
  unfold applyMigration at applied
  split at applied
  · cases applied
    constructor <;> simp
  · split at applied
    · cases applied
      constructor <;> simp
    · cases applied

theorem sameStored_applyLast (count : Nat) (database : Database) :
    SameStored database (applyLast count database).2 := by
  induction count generalizing database with
  | zero => exact ⟨rfl, rfl⟩
  | succ remaining inductionHypothesis =>
      unfold applyLast
      split
      next => exact ⟨rfl, rfl⟩
      next next applied =>
        have one := sameStored_of_applyMigration applied
        have others := inductionHypothesis next
        exact ⟨others.hosts.trans one.hosts, others.policies.trans one.policies⟩

/-- Migrating keeps the rows and the policies, even when it fails halfway. -/
theorem sameStored_migrate (database : Database) : SameStored database database.migrate.2 := by
  unfold migrate
  dsimp only
  split
  · exact ⟨rfl, rfl⟩
  · obtain ⟨hosts, policies⟩ := sameStored_applyLast
      (latestVersion - database.withVersions.currentVersion).toNat database.withVersions
    exact ⟨hosts, policies⟩

theorem authored_insertHost (authored : Authored (database.hosts.getD []))
    (taken : database.insertHost host = .ok next) : Authored (next.hosts.getD []) := by
  obtain ⟨row, made, inserted⟩ := insertRow_of_insertHost taken
  cases stored : database.hosts with
  | none => simp [insertRow, stored] at inserted
  | some rows =>
      obtain ⟨fresh, rfl⟩ := fresh_of_insertRow stored inserted
      rw [stored] at authored
      exact authored.concat made fresh

theorem authored_importHost {skipExisting : Bool} {summary total : ImportSummary}
    (authored : Authored (database.hosts.getD []))
    (imported : importHost skipExisting host summary database = .ok (total, next)) :
    Authored (next.hosts.getD []) := by
  unfold importHost at imported
  split at imported
  next => cases imported
  next =>
    split at imported
    next =>
      split at imported
      · cases imported
        exact authored
      · cases imported
    next =>
      split at imported
      next => cases imported
      next taken =>
        cases imported
        exact authored_insertHost authored taken

theorem authored_importLines {file : String} {skipExisting : Bool} {number : Nat} {lines : List Line}
    {summary total : ImportSummary} (authored : Authored (database.hosts.getD []))
    (went : importLines file skipExisting number lines summary database = .ok (total, next)) :
    Authored (next.hosts.getD []) := by
  induction lines generalizing number summary database with
  | nil =>
      cases went
      exact authored
  | cons line rest inductionHypothesis =>
      cases line with
      | none => cases went
      | some line =>
          simp only [importLines] at went
          split at went
          next => exact inductionHypothesis authored went
          next =>
            split at went
            next => cases went
            next =>
              split at went
              next => cases went
              next imported => exact inductionHypothesis (authored_importHost authored imported) went

theorem authored_importFile (authored : Authored (database.hosts.getD [])) (file : String)
    (content : Option (List Line)) (skipExisting : Bool) :
    Authored ((importFile file content skipExisting database).2.hosts.getD []) := by
  have migrated : Authored (database.migrate.2.hosts.getD []) := (sameStored_migrate database).hosts.symm ▸ authored
  unfold importFile
  split
  next same =>
    rw [same] at migrated
    exact migrated
  next same =>
    rw [same] at migrated
    split
    next => exact migrated
    next =>
      split
      next => exact migrated
      next went => exact authored_importLines migrated went

/-- In a furnished database every row is that of a host, and no identifier has two. -/
theorem Furnished.authored (furnished : Furnished database) : Authored (database.hosts.getD []) := by
  induction furnished with
  | bare noRows =>
      rw [noRows]
      exact .nil
  | insertHost _ taken authored => exact authored_insertHost authored taken
  | importFile _ file content skipExisting authored =>
      exact authored_importFile authored file content skipExisting
  | change _ rows authored => exact authored.sublist rows

/-- Whether the host is taken or refused, the database stays furnished. -/
theorem Furnished.insert (furnished : Furnished database) (host : Host) :
    Furnished (Database.change (Database.insertHost host) database).2 := by
  unfold Database.change
  split
  next taken => exact furnished.insertHost taken
  next => exact furnished

theorem getD_of_rows {context : Option String} {rows : List HostRow} (there : database.rows context = .ok rows) :
    database.hosts.getD [] = rows := by
  unfold Database.rows at there
  split at there
  next stored =>
    rw [stored]
    exact Except.ok.inj there
  next => cases there

/-- No row of an identifier is left among the others. -/
theorem hasId_filter_ne (rows : List HostRow) (id : String) :
    hasId (rows.filter fun row => row.id ≠ id) id = false := by
  simp [hasId]

/-- A removal leaves the other rows, and says whether there was one of the identifier. -/
theorem removeHost_eq_ok {id : HostId} {removal : Removal}
    (taken : database.removeHost id = .ok (removal, next)) :
    next.hosts.getD [] = (database.hosts.getD []).filter (fun row => row.id ≠ id.text) ∧
      (removal = .deleted ↔ hasId (database.hosts.getD []) id.text = true) := by
  unfold removeHost at taken
  split at taken
  next => cases taken
  next rows there =>
    rw [getD_of_rows there]
    split at taken
    next present =>
      cases taken
      exact ⟨rfl, by simp [present]⟩
    next absent =>
      cases taken
      refine ⟨?_, by simp [absent]⟩
      rw [getD_of_rows there, eq_comm, List.filter_eq_self]
      exact fun row among =>
        decide_eq_true fun same => absent (List.any_eq_true.2 ⟨row, among, decide_eq_true same⟩)

/-! ### Queries -/

theorem nested_decodeFacts {id : HostId} {text : String} {facts : Json.Members}
    (taken : decodeFacts id text = .ok facts) : Json.Nested Json.Dialect.records.depth (.object facts) := by
  unfold decodeFacts at taken
  split at taken
  next => cases taken
  next members read =>
    cases taken
    obtain ⟨value, held, settled⟩ := Option.map_eq_some_iff.1 read
    rw [← settled]
    exact (Json.nested_readAs held).settle
  next =>
    cases taken
    exact .object (by simp)

/-- What a host's row is decoded as has the row's identifier and can be published. -/
theorem presentable_of_decode {stored : Host} {row : HostRow} (made : ofHost stored = .ok row)
    (decoded : row.decode = .ok host) : host.id.text = row.id ∧ host.Presentable := by
  obtain rfl := (ofHost_eq_ok made).1
  have named := (HostRow.ofHost_eq_written.1 made).1
  unfold decode at decoded
  split at decoded
  next => cases decoded
  next id read =>
    obtain rfl := Except.ok.inj ((HostId.parse_text stored.id).symm.trans read)
    split at decoded
    next => cases decoded
    next =>
      split at decoded
      next => cases decoded
      next facts taken =>
        split at decoded
        next => cases decoded
        next =>
          cases decoded
          refine ⟨rfl, ?_, nested_decodeFacts taken⟩
          intro blank
          have account : stored.account = "" := blank
          rw [account] at named
          cases named

/-- Rows of hosts are decoded as hosts of the same identifiers, and all of these can be published. -/
theorem Authored.decodeAll {rows : List HostRow} {hosts : List Host} (authored : Authored rows)
    (decoded : HostRow.decodeAll rows = .ok hosts) :
    hosts.map (fun host => host.id.text) = rows.map HostRow.id ∧ ∀ host ∈ hosts, host.Presentable := by
  induction rows generalizing hosts with
  | nil =>
      cases decoded
      exact ⟨rfl, by simp⟩
  | cons row rest inductionHypothesis =>
      unfold HostRow.decodeAll at decoded
      split at decoded
      next => cases decoded
      next host first =>
        cases later : HostRow.decodeAll rest with
        | error fault =>
            rw [later] at decoded
            cases decoded
        | ok others =>
            rw [later] at decoded
            cases decoded
            obtain ⟨stored, made⟩ := authored.written row List.mem_cons_self
            obtain ⟨id, presentable⟩ := presentable_of_decode made first
            have behind := authored.sublist (List.sublist_cons_self row rest)
            obtain ⟨ids, others⟩ := inductionHypothesis behind later
            refine ⟨?_, List.forall_mem_cons.2 ⟨presentable, others⟩⟩
            rw [List.map_cons, List.map_cons, id, ids]

/-- The candidates that a query finds are of different identifiers, and all of them can be published. -/
theorem authored_loadCandidates (authored : Authored (database.hosts.getD [])) {account : String}
    {filter : FactFilter} {hosts : List Host} (found : loadCandidates account filter database = .ok hosts) :
    DistinctIds hosts ∧ ∀ host ∈ hosts, host.Presentable := by
  unfold loadCandidates at found
  split at found
  next => cases found
  next clause _ =>
    split at found
    next => cases found
    next =>
      split at found
      next => cases found
      next rows there =>
        rw [getD_of_rows there] at authored
        dsimp only at found
        have sorted := (authored.sublist List.filter_sublist).perm
          (List.mergeSort_perm (rows.filter fun row => row.account = account && clause.selects row.stored)
            byModification).symm
        obtain ⟨ids, presentable⟩ := sorted.decodeAll found
        have apart := List.pairwise_map.2 sorted.distinct
        rw [← ids, List.pairwise_map] at apart
        exact ⟨apart.imp fun different same => different (congrArg HostId.text same), presentable⟩

end Database

end HostPruning
