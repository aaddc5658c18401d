import HostPruning.Database.Import
import HostPruning.Proofs.Collections
import HostPruning.Proofs.Migrating
import HostPruning.Proofs.Records

/-!
# What an import does

The lines of a file that are not blank hold its records: hosts, or nothing that can be read as one. A
record is judged by the rows that were stored and by the records before it. It is skipped if that is
asked for and its identifier is known, and it is faulty if it is no host, or if it is a host that is not
skipped and that is known or that the table does not take. One faulty record anywhere undoes the whole
import; without one, every host that is first of a new identifier gets its row.

`Progress` is what the lines read so far have led to; `Progress.step` takes it over one record and
`Progress.run` over the rest of a file.
-/

namespace HostPruning.Database

open HostRow

/-! ### Records -/

/-- What a line that is not blank holds: a host, or nothing when it cannot be read as one. -/
abbrev Record := Option Host

/-- The record of a line, unless the line is blank. -/
def record? : Line → Option Record
  | none => some none
  | some line => if (Text.trim line).isEmpty then none else some (Host.ofText (Text.trim line))

/-- The records of a file, in order. -/
def records (lines : List Line) : List Record := lines.filterMap record?

/-- Whether an identifier is stored or occurred in a record. -/
def Known (rows : List HostRow) (earlier : List Record) (id : HostId) : Prop :=
  hasId rows id.text = true ∨ ∃ host, some host ∈ earlier ∧ host.id = id

/-- Whether the table takes a host that is new: it has an account, its modification time fits a row,
its stale moment has a text, and its row passes the checks of the table. -/
structure Storable (host : Host) : Prop where
  account : Text.blank host.account = false
  modified : nanosBounds.1 ≤ host.modifiedOn.unixNanos ∧ host.modifiedOn.unixNanos ≤ nanosBounds.2
  stale : (Time.rfc3339 host.staleTimestamp).isSome = true
  admitted : (written host).admissible = true

/-- Whether an import passes over a host. -/
def Skipped (skipExisting : Bool) (rows : List HostRow) (earlier : List Record) (host : Host) : Prop :=
  skipExisting = true ∧ Known rows earlier host.id

/-- Whether an import fails at a record. -/
def Faulty (skipExisting : Bool) (rows : List HostRow) (earlier : List Record) : Record → Prop
  | none => True
  | some host => ¬ Skipped skipExisting rows earlier host ∧ (Known rows earlier host.id ∨ ¬ Storable host)

/-- Whether no record of a file is faulty. -/
def FaultFree (skipExisting : Bool) (rows : List HostRow) (records : List Record) : Prop :=
  ∀ index, (inside : index < records.length) →
    ¬ Faulty skipExisting rows (records.take index) records[index]

/-- Whether a host is that of the first record of an identifier that was not stored. -/
def First (rows : List HostRow) (records : List Record) (host : Host) : Prop :=
  ∃ index, ∃ inside : index < records.length,
    records[index] = some host ∧ ¬ Known rows (records.take index) host.id

instance (rows : List HostRow) (earlier : List Record) (id : HostId) : Decidable (Known rows earlier id) :=
  decidable_of_iff (hasId rows id.text = true ∨ ∃ record ∈ earlier, record.map Host.id = some id) <| by
    simp [Known, Option.map_eq_some_iff]

instance (host : Host) : Decidable (Storable host) :=
  decidable_of_iff
    (Text.blank host.account = false ∧
      (nanosBounds.1 ≤ host.modifiedOn.unixNanos ∧ host.modifiedOn.unixNanos ≤ nanosBounds.2) ∧
        (Time.rfc3339 host.staleTimestamp).isSome = true ∧ (written host).admissible = true)
    ⟨fun ⟨account, modified, stale, admitted⟩ => ⟨account, modified, stale, admitted⟩,
      fun ⟨account, modified, stale, admitted⟩ => ⟨account, modified, stale, admitted⟩⟩

instance (skipExisting : Bool) (rows : List HostRow) (earlier : List Record) :
    (record : Record) → Decidable (Faulty skipExisting rows earlier record)
  | none => inferInstanceAs (Decidable True)
  | some host => inferInstanceAs (Decidable
      (¬ (skipExisting = true ∧ Known rows earlier host.id) ∧ (Known rows earlier host.id ∨ ¬ Storable host)))

instance (skipExisting : Bool) (rows : List HostRow) (records : List Record) :
    Decidable (FaultFree skipExisting rows records) := Nat.decidableBallLT _ _

section Append

variable {skipExisting : Bool} {rows : List HostRow} {earlier : List Record} {host : Host}

theorem faultFree_append {record : Record} :
    FaultFree skipExisting rows (earlier ++ [record]) ↔
      FaultFree skipExisting rows earlier ∧ ¬ Faulty skipExisting rows earlier record := by
  simpa only [FaultFree, not_exists, not_or] using not_congr
    (exists_place_append (Faulty skipExisting rows) earlier record)

/-- The records up to some place are faultless when all are. -/
theorem FaultFree.front {later : List Record} (faultFree : FaultFree skipExisting rows (earlier ++ later)) :
    FaultFree skipExisting rows earlier := by
  intro index inside
  have sound := faultFree index (by rw [List.length_append]; omega)
  rwa [List.take_append_of_le_length (Nat.le_of_lt inside), List.getElem_append_left inside] at sound

theorem first_append {next : Host} :
    First rows (earlier ++ [some next]) host ↔
      First rows earlier host ∨ (next = host ∧ ¬ Known rows earlier next.id) := by
  have place := exists_place_append
    (fun before record => record = some host ∧ ¬ Known rows before host.id) earlier (some next)
  refine place.trans (or_congr Iff.rfl ?_)
  rw [Option.some.injEq]
  exact and_congr_right fun same => by rw [same]

theorem known_append {id : HostId} :
    Known rows (earlier ++ [some host]) id ↔ Known rows earlier id ∨ host.id = id := by
  unfold Known
  constructor
  · rintro (stored | ⟨other, among, same⟩)
    · exact Or.inl (Or.inl stored)
    · rcases List.mem_append.1 among with before | last
      · exact Or.inl (Or.inr ⟨other, before, same⟩)
      · cases List.mem_singleton.1 last
        exact Or.inr same
  · rintro ((stored | ⟨other, among, same⟩) | same)
    · exact Or.inl stored
    · exact Or.inr ⟨other, List.mem_append_left _ among, same⟩
    · exact Or.inr ⟨host, by simp, same⟩

end Append

/-! ### One record -/

theorem hasId_append (first second : List HostRow) (id : String) :
    hasId (first ++ second) id = (hasId first id || hasId second id) := List.any_append

variable {skipExisting : Bool} {start database next : Database} {rows : List HostRow} {earlier : List Record}
  {added : List Host} {host : Host} {summary : ImportSummary}

/-- When a row is made for a host. -/
theorem HostRow.ofHost_eq_written :
    HostRow.ofHost host = .ok (written host) ↔
      Text.blank host.account = false ∧
        (nanosBounds.1 ≤ host.modifiedOn.unixNanos ∧ host.modifiedOn.unixNanos ≤ nanosBounds.2) ∧
          (Time.rfc3339 host.staleTimestamp).isSome = true := by
  unfold HostRow.ofHost Host.validate
  by_cases named : Text.blank host.account = true
  · simp [named]
  by_cases outside : host.modifiedOn.unixNanos < nanosBounds.1 ∨ nanosBounds.2 < host.modifiedOn.unixNanos
  · have unfit : ¬ (nanosBounds.1 ≤ host.modifiedOn.unixNanos ∧
        host.modifiedOn.unixNanos ≤ nanosBounds.2) := by omega
    simp [named, outside, unfit]
  have fit : nanosBounds.1 ≤ host.modifiedOn.unixNanos ∧ host.modifiedOn.unixNanos ≤ nanosBounds.2 := by omega
  cases stale : Time.rfc3339 host.staleTimestamp with
  | none => simp [named, outside]
  | some staleText => simp [named, outside, fit, written, stale]

/-- A host that the table takes gets its row if it is new. -/
theorem insertHost_of_storable (stored : database.hosts = some rows)
    (fresh : hasId rows host.id.text = false) (storable : Storable host) :
    database.insertHost host = .ok { database with hosts := some (rows ++ [written host]) } := by
  have made := HostRow.ofHost_eq_written.2 ⟨storable.account, storable.modified, storable.stale⟩
  simp [insertHost, made, insertRow, stored, storable.admitted, fresh]

theorem storable_of_insertHost (taken : database.insertHost host = .ok next) : Storable host := by
  obtain ⟨row, made, inserted⟩ := insertRow_of_insertHost taken
  obtain rfl := (ofHost_eq_ok made).1
  obtain ⟨account, modified, stale⟩ := HostRow.ofHost_eq_written.1 made
  refine ⟨account, modified, stale, ?_⟩
  unfold insertRow at inserted
  split at inserted
  next => cases inserted
  next =>
    split at inserted
    next passed => exact (Bool.and_eq_true_iff.1 passed).1
    next => cases inserted

/-- A database whose host table has some rows and after them those of some hosts. -/
def holding (start : Database) (rows : List HostRow) (added : List Host) : Database :=
  { start with hosts := some (rows ++ added.map written) }

@[simp]
theorem rows_holding (context : Option String) :
    (holding start rows added).rows context = .ok (rows ++ added.map written) := rfl

/-- What the records so far have led to: none of them was faulty, the first host of each new
identifier was added, and the summary counts them all. -/
structure Progress (skipExisting : Bool) (rows : List HostRow) (earlier : List Record)
    (added : List Host) (summary : ImportSummary) : Prop where
  faultFree : FaultFree skipExisting rows earlier
  known : ∀ id, hasId (rows ++ added.map written) id.text = true ↔ Known rows earlier id
  firsts : ∀ host, host ∈ added ↔ First rows earlier host
  distinct : DistinctIds added
  imported : summary.imported = added.length
  counted : summary.imported + summary.skipped = earlier.length

namespace Progress

theorem nil : Progress skipExisting rows [] [] ⟨0, 0⟩ where
  faultFree := by simp [FaultFree]
  known := by simp [Known]
  firsts := by simp [First]
  distinct := List.Pairwise.nil
  imported := rfl
  counted := rfl

/-- A host that is known and may be skipped changes nothing but the count. -/
theorem skip (progress : Progress true rows earlier added summary) (known : Known rows earlier host.id) :
    Progress true rows (earlier ++ [some host]) added { summary with skipped := summary.skipped + 1 } where
  faultFree := faultFree_append.2 ⟨progress.faultFree, fun faulty => faulty.1 ⟨rfl, known⟩⟩
  known wanted := by
    rw [progress.known, known_append]
    exact ⟨Or.inl, fun either => either.elim id fun same => same ▸ known⟩
  firsts other := by
    rw [progress.firsts, first_append]
    exact ⟨Or.inl, fun either => either.elim id fun first => absurd known first.2⟩
  distinct := progress.distinct
  imported := progress.imported
  counted := by
    have counted := progress.counted
    simp only [List.length_append, List.length_singleton]
    omega

/-- A host that is not known and that the table takes is added. -/
theorem add (progress : Progress skipExisting rows earlier added summary)
    (unknown : ¬ Known rows earlier host.id) (storable : Storable host) :
    Progress skipExisting rows (earlier ++ [some host]) (added ++ [host])
      { summary with imported := summary.imported + 1 } where
  faultFree := by
    refine faultFree_append.2 ⟨progress.faultFree, ?_⟩
    rintro ⟨-, known | refused⟩
    · exact unknown known
    · exact refused storable
  known wanted := by
    have last : hasId [written host] wanted.text = true ↔ host.id = wanted := by
      simp [hasId, HostId.text_inj]
    rw [List.map_append, ← List.append_assoc, hasId_append, Bool.or_eq_true, progress.known]
    exact (or_congr Iff.rfl last).trans known_append.symm
  firsts other := by
    rw [List.mem_append, progress.firsts, first_append, List.mem_singleton]
    exact or_congr Iff.rfl ⟨fun same => ⟨same.symm, unknown⟩, fun first => first.1.symm⟩
  distinct := by
    refine List.pairwise_append.2 ⟨progress.distinct, List.pairwise_singleton _ _, ?_⟩
    intro other among new isNew same
    obtain rfl := List.mem_singleton.1 isNew
    refine unknown ((progress.known _).1 ?_)
    rw [hasId_append, Bool.or_eq_true]
    exact Or.inr (List.any_eq_true.2 ⟨written other, List.mem_map_of_mem among, by simp [same]⟩)
  imported := by simp [progress.imported]
  counted := by
    have counted := progress.counted
    simp only [List.length_append, List.length_singleton]
    omega

/-- One host: the import fails if it is faulty, and goes on with it otherwise. -/
theorem step (progress : Progress skipExisting rows earlier added summary) (start : Database) (host : Host) :
    (Faulty skipExisting rows earlier (some host) ∧
        ∃ fault, importHost skipExisting host summary (holding start rows added) = .error fault) ∨
      ∃ nextAdded nextSummary,
        importHost skipExisting host summary (holding start rows added) =
            .ok (nextSummary, holding start rows nextAdded) ∧
          Progress skipExisting rows (earlier ++ [some host]) nextAdded nextSummary := by
  by_cases known : Known rows earlier host.id
  · have present := (progress.known host.id).2 known
    cases skipExisting with
    | false =>
        refine Or.inl ⟨⟨fun skipped => Bool.false_ne_true skipped.1, Or.inl known⟩, .alreadyStored host.id, ?_⟩
        simp [importHost, present]
    | true =>
        refine Or.inr ⟨added, _, ?_, progress.skip known⟩
        simp [importHost, present]
  · have absent : hasId (rows ++ added.map written) host.id.text = false :=
      Bool.eq_false_iff.2 fun present => known ((progress.known host.id).1 present)
    by_cases storable : Storable host
    · refine Or.inr ⟨added ++ [host], _, ?_, progress.add known storable⟩
      have taken : (holding start rows added).insertHost host = .ok (holding start rows (added ++ [host])) := by
        rw [insertHost_of_storable rfl absent storable]
        simp [holding]
      simp [importHost, absent, taken]
    · refine Or.inl ⟨⟨fun skipped => known skipped.2, Or.inr storable⟩, ?_⟩
      cases taken : (holding start rows added).insertHost host with
      | error fault => exact ⟨fault, by simp [importHost, absent, taken]⟩
      | ok next => exact absurd (storable_of_insertHost taken) storable

/-- The rest of a file: the import fails if one of its records is faulty, and reads it to the end
otherwise. -/
theorem run (progress : Progress skipExisting rows earlier added summary) (start : Database)
    (file : String) (number : Nat) (lines : List Line) :
    (¬ FaultFree skipExisting rows (earlier ++ records lines) ∧
        ∃ fault, importLines file skipExisting number lines summary (holding start rows added) =
          .error fault) ∨
      ∃ nextAdded nextSummary,
        importLines file skipExisting number lines summary (holding start rows added) =
            .ok (nextSummary, holding start rows nextAdded) ∧
          Progress skipExisting rows (earlier ++ records lines) nextAdded nextSummary := by
  induction lines generalizing earlier added summary number with
  | nil => exact Or.inr ⟨added, summary, rfl, by simpa [records] using progress⟩
  | cons line rest inductionHypothesis =>
      have faultyNow (record : Record) (faulty : Faulty skipExisting rows earlier record) :
          ¬ FaultFree skipExisting rows (earlier ++ record :: records rest) := by
        rw [List.append_cons]
        exact fun faultFree => (faultFree_append.1 faultFree.front).2 faulty
      cases line with
      | none => exact Or.inl ⟨faultyNow none trivial, _, rfl⟩
      | some text =>
          by_cases blank : (Text.trim text).isEmpty = true
          · have noRecord : records (some text :: rest) = records rest := by simp [records, record?, blank]
            simp only [importLines, blank, if_true, noRecord]
            exact inductionHypothesis progress (number + 1)
          · have record : records (some text :: rest) = Host.ofText (Text.trim text) :: records rest := by
              simp [records, record?, blank]
            simp only [importLines, blank, record]
            cases decoded : Host.ofText (Text.trim text) with
            | none => exact Or.inl ⟨faultyNow none trivial, _, rfl⟩
            | some host =>
                rcases progress.step start host with ⟨faulty, fault, failed⟩ | ⟨_, _, went, further⟩
                · exact Or.inl ⟨faultyNow _ faulty, fault, by simp [failed]⟩
                · rw [List.append_cons]
                  simpa [went] using inductionHypothesis further (number + 1)

/-- Every record of what was imported is known afterwards. -/
theorem known_after (progress : Progress skipExisting rows earlier added summary)
    (among : some host ∈ earlier) (before : List Record) :
    Known (rows ++ added.map written) before host.id :=
  Or.inl ((progress.known host.id).2 (Or.inr ⟨host, among, rfl⟩))

/-- Reading the same records once more, no record is faulty if hosts may be skipped. -/
theorem faultFree_after (progress : Progress skipExisting rows earlier added summary) :
    FaultFree true (rows ++ added.map written) earlier := by
  intro index inside faulty
  have sound := progress.faultFree index inside
  have among := List.getElem_mem inside
  generalize earlier[index] = record at faulty sound among
  cases record with
  | none => exact sound trivial
  | some host => exact faulty.1 ⟨rfl, progress.known_after among _⟩

/-- Reading the same records once more, no host is new. -/
theorem not_first_after (progress : Progress skipExisting rows earlier added summary) (host : Host) :
    ¬ First (rows ++ added.map written) earlier host := by
  rintro ⟨index, inside, here, unknown⟩
  exact unknown (progress.known_after (here ▸ List.getElem_mem inside) _)

theorem storable (progress : Progress skipExisting rows earlier added summary) (among : host ∈ added) :
    Storable host := by
  obtain ⟨index, inside, here, unknown⟩ := (progress.firsts host).1 among
  have sound := progress.faultFree index inside
  rw [here] at sound
  by_contra refused
  exact sound ⟨fun skipped => unknown skipped.2, Or.inr refused⟩

/-- An added host is found under its identifier. -/
theorem getHost_holding (progress : Progress skipExisting rows earlier added summary)
    (among : host ∈ added) (restorable : Restorable host) :
    (holding start rows added).getHost host.id = .ok (some host.inUtc) := by
  obtain ⟨index, inside, -, unknown⟩ := (progress.firsts host).1 among
  have absent : rows.find? (fun row => row.id = host.id.text) = none := by
    rw [List.find?_eq_none]
    exact fun row stored same => unknown (Or.inl (List.any_eq_true.2 ⟨row, stored, same⟩))
  have found : (added.map written).find? (fun row => row.id = host.id.text) = some (written host) := by
    cases search : (added.map written).find? (fun row => row.id = host.id.text) with
    | none => exact absurd (List.find?_eq_none.1 search _ (List.mem_map_of_mem among)) (by simp)
    | some row =>
        obtain ⟨other, isAdded, rfl⟩ := List.mem_map.1 (List.mem_of_find?_eq_some search)
        have same := List.find?_some search
        rw [decide_eq_true_eq, id_written, HostId.text_inj] at same
        rw [progress.distinct.eq_of_id isAdded among same]
  simp only [getHost, rows_holding, List.find?_append, absent, found, Option.none_or,
    decode_written restorable]
  rfl

end Progress

/-! ### Whole files -/

/-- Whether a database has the hosts and policies that another has. -/
structure SameStored (before after : Database) : Prop where
  hosts : after.hosts.getD [] = before.hosts.getD []
  policies : after.policies.getD ∅ = before.policies.getD ∅

theorem Brought.holding {before : Database} (brought : Brought before latestVersion start)
    (rows : List HostRow) (added : List Host) :
    Brought (holding start rows added) latestVersion (holding start rows added) :=
  ⟨brought.versions, brought.current, rfl, rfl, fun _ => rfl, brought.policiesThere⟩

/-- A file whose lines fail leaves the migrated database. -/
theorem importFile_of_failed (migrated : database.migrate = (.ok (), start)) {file : String}
    {lines : List Line} {fault : DatabaseFault}
    (failed : importLines file skipExisting 1 lines ⟨0, 0⟩ start = .error fault) :
    importFile file (some lines) skipExisting database = (.error fault, start) := by
  simp [importFile, migrated, failed]

/-- A file whose lines are read leaves the database that they were read into. -/
theorem importFile_of_read (migrated : database.migrate = (.ok (), start)) {file : String}
    {lines : List Line} (read : importLines file skipExisting 1 lines ⟨0, 0⟩ start = .ok (summary, next)) :
    importFile file (some lines) skipExisting database = (.ok summary, next) := by
  simp [importFile, migrated, read]

/-- A file that was imported is imported again, hosts that exist being skipped, and changes nothing. -/
theorem Progress.again {before : Database} (brought : Brought before latestVersion start)
    (file : String) {lines : List Line}
    (progress : Progress skipExisting rows (records lines) added summary) :
    importFile file (some lines) true (holding start rows added) =
      (.ok ⟨0, (records lines).length⟩, holding start rows added) := by
  have same : holding (holding start rows added) (rows ++ added.map written) [] = holding start rows added := by
    simp [holding]
  rcases Progress.nil.run (holding start rows added) file 1 lines with
    ⟨faulty, -⟩ | ⟨more, counts, read, reread⟩
  · exact absurd progress.faultFree_after faulty
  · obtain rfl : more = [] := by
      refine List.eq_nil_iff_forall_not_mem.2 fun host among => ?_
      exact progress.not_first_after host ((reread.firsts host).1 among)
    obtain ⟨imported, skipped⟩ := counts
    obtain rfl : imported = 0 := reread.imported
    obtain rfl : skipped = (records lines).length := by simpa using reread.counted
    rw [same] at read
    exact importFile_of_read (brought.holding rows added).migrate_eq read

/-- An import either meets a faulty record and leaves the migrated database, or reads all records. -/
theorem importFile_cases (supported : database.Supported) (file : String) (skipExisting : Bool)
    (lines : List Line) :
    (¬ FaultFree skipExisting (database.hosts.getD []) (records lines) ∧
        ∃ fault, importFile file (some lines) skipExisting database = (.error fault, database.migrate.2)) ∨
      ∃ added summary,
        importFile file (some lines) skipExisting database =
            (.ok summary, holding database.migrate.2 (database.hosts.getD []) added) ∧
          Progress skipExisting (database.hosts.getD []) (records lines) added summary := by
  obtain ⟨migrates, brought⟩ := supported.migrate
  have migrated : database.migrate = (.ok (), database.migrate.2) := Prod.ext migrates rfl
  have begun : holding database.migrate.2 (database.hosts.getD []) [] = database.migrate.2 := by
    rw [holding, List.map_nil, List.append_nil, ← brought.hosts_eq]
  rcases Progress.nil.run database.migrate.2 file 1 lines with
    ⟨faulty, fault, failed⟩ | ⟨added, summary, read, progress⟩
  · rw [begun] at failed
    exact Or.inl ⟨faulty, fault, importFile_of_failed migrated failed⟩
  · rw [begun] at read
    exact Or.inr ⟨added, summary, importFile_of_read migrated read, progress⟩

theorem Supported.importFile (supported : database.Supported) (file : String)
    (content : Option (List Line)) (skipExisting : Bool) :
    (importFile file content skipExisting database).2.Supported := by
  obtain ⟨migrates, brought⟩ := supported.migrate
  cases content with
  | none =>
      have migrated : database.migrate = (.ok (), database.migrate.2) := Prod.ext migrates rfl
      rw [Database.importFile, migrated]
      exact brought.supported
  | some lines =>
      rcases importFile_cases supported file skipExisting lines with
        ⟨-, fault, failed⟩ | ⟨added, summary, read, -⟩
      · rw [failed]
        exact brought.supported
      · rw [read]
        exact (brought.holding _ added).supported

/-- What this library makes of an empty database. -/
inductive Reached : Database → Prop where
  | empty : Reached Database.empty
  | migrate {database : Database} (reached : Reached database) : Reached database.migrate.2
  | schemaStatus {database : Database} (reached : Reached database) : Reached database.schemaStatus.2
  | insertHost {database next : Database} {host : Host} (reached : Reached database)
      (taken : database.insertHost host = .ok next) : Reached next
  | importFile {database : Database} (reached : Reached database) (file : String)
      (content : Option (List Line)) (skipExisting : Bool) :
      Reached (importFile file content skipExisting database).2
  | removeHost {database next : Database} {id : HostId} {removal : Removal} (reached : Reached database)
      (taken : database.removeHost id = .ok (removal, next)) : Reached next
  | setPolicy {database next : Database} {account : String} {policy : Lifecycle.Policy} {updatedAt : String}
      (reached : Reached database) (taken : database.setPolicy account policy updatedAt = .ok next) :
      Reached next

/-- A database that was created empty and changed through this library is supported. -/
theorem Reached.supported (reached : Reached database) : database.Supported := by
  induction reached with
  | empty => exact ⟨by decide, by decide, by decide, by decide⟩
  | migrate _ supported => exact supported.migrate.2.supported
  | schemaStatus _ supported => exact supported.schemaStatus
  | insertHost _ taken supported => exact supported.insertHost taken
  | importFile _ file content skipExisting supported => exact supported.importFile file content skipExisting
  | removeHost _ taken supported => exact supported.removeHost taken
  | setPolicy _ taken supported => exact supported.setPolicy taken

end HostPruning.Database
