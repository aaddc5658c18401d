import Mathlib.Data.Prod.Lex
import HostPruning.Proofs.Encoding
import HostPruning.Proofs.Importing
import HostPruning.Proofs.Lines

/-!
# Exporting hosts and importing them again

Hosts that were written one record a line are imported into an empty database as they were: every one of
them is added, and the database lists them by account and identifier and finds each under its identifier.
What comes back is the host with its modification time in UTC, for a row keeps the instant alone.

Every text on the way has to be read back for that: the lines of the file (`fileLines_of_holds`), the
records on them (`exists_lines`), and each row with what stands in it (`Restorable`).
-/

namespace HostPruning

/-- The record of a host as a line of text, without its line break. -/
def Host.line (host : Host) : Option String := host.toJson.map Json.render

theorem DistinctIds.nodup {hosts : List Host} (distinct : DistinctIds hosts) : hosts.Nodup :=
  List.Pairwise.imp (fun apart => mt (congrArg Host.id) apart) distinct

namespace Database

open HostRow

/-- Whether a host can be exported and comes back: a database takes it, its modification time has an offset
that can be written, and its facts are ones that a record can hold below its own level. -/
structure Exportable (host : Host) : Prop where
  taken : ∃ database next : Database, database.insertHost host = .ok next
  whole : host.modifiedOn.offset % 60 = 0
  short : host.modifiedOn.offset.natAbs < 86400
  facts : Json.Recordable (Json.Dialect.records.depth - 1) (.object host.facts)

namespace Exportable

variable {host : Host}

theorem storable (exportable : Exportable host) : Storable host := by
  obtain ⟨database, next, taken⟩ := exportable.taken
  exact storable_of_insertHost taken

theorem restorable (exportable : Exportable host) : Restorable host :=
  ⟨exportable.facts.mono (Nat.sub_le _ _), exportable.storable.stale⟩

/-- What fits a row has a text: 64 bits of nanoseconds stay far within the years of four digits. -/
theorem modified (exportable : Exportable host) : (Time.rfc3339 host.modifiedOn).isSome = true := by
  obtain ⟨low, high⟩ := exportable.storable.modified
  have short := exportable.short
  have least : nanosBounds.1 = -9223372036854775808 := by decide
  have greatest : nanosBounds.2 = 9223372036854775807 := by decide
  rw [least, Moment.unixNanos, Moment.nanosPerSecond] at low
  rw [greatest, Moment.unixNanos, Moment.nanosPerSecond] at high
  apply Time.rfc3339_isSome _ _ short exportable.whole
  all_goals
    simp only [Moment.nanosPerDay, Time.epochShift]
    omega

/-- An exported host has a record, which is read as the host. -/
theorem exists_record (exportable : Exportable host) :
    ∃ members, host.toJson = some (.object members) ∧
      Host.ofText (Json.object members).render = some host := by
  obtain ⟨modifiedText, modified⟩ := Option.isSome_iff_exists.1 exportable.modified
  obtain ⟨staleText, stale⟩ := Option.isSome_iff_exists.1 exportable.storable.stale
  have encoded : host.toJson = some (.object (host.members (.string modifiedText) (.string staleText))) := by
    apply Host.toJson_eq_some.2
    refine ⟨_, _, ?_, ?_, rfl⟩
    · rw [Json.ofMoment, modified, Option.map_some]
    · rw [Json.ofMoment, stale, Option.map_some]
  exact ⟨_, encoded, Host.ofText_render exportable.facts (by decide) encoded⟩

end Exportable

/-! ### Lines -/

/-- A line that holds an object is the record of that object. -/
theorem record?_object (members : Json.Members) :
    record? (some (Json.object members).render) = some (Host.ofText (Json.object members).render) := by
  have trimmed : Text.trim (Json.object members).render = (Json.object members).render := Text.trim_braced _
  have filled : (Json.object members).render.isEmpty = false := by
    simp [Json.render, Json.chars]
  rw [record?, trimmed, filled]
  rfl

theorem utf8_object_ne_nil (members : Json.Members) : Text.utf8 (Json.object members).render ≠ [] := by
  simp [Text.utf8, Json.render, Json.chars, String.utf8EncodeChar_ne_nil]

variable {hosts : List Host}

/-- Exported hosts have lines that a file can hold, and the records of such a file are the hosts. -/
theorem exists_lines (exportable : ∀ host ∈ hosts, Exportable host) :
    ∃ lines, hosts.mapM Host.line = some lines ∧
      (∀ line ∈ lines, Json.Printable line.toList ∧ Text.utf8 line ≠ []) ∧
        records (lines.map some) = hosts.map some := by
  induction hosts with
  | nil => exact ⟨[], rfl, by simp, rfl⟩
  | cons host rest inductionHypothesis =>
      rw [List.forall_mem_cons] at exportable
      obtain ⟨lines, written, sound, read⟩ := inductionHypothesis exportable.2
      obtain ⟨members, encoded, readBack⟩ := exportable.1.exists_record
      refine ⟨(Json.object members).render :: lines, ?_, ?_, ?_⟩
      · simp [List.mapM_cons, Host.line, encoded, written]
      · rw [List.forall_mem_cons]
        exact ⟨⟨Json.printable_render _, utf8_object_ne_nil members⟩, sound⟩
      · have first := record?_object members
        rw [readBack] at first
        rw [List.map_cons, records, List.filterMap_cons, first, List.map_cons, ← read]
        rfl

/-! ### Importing -/

variable {rows : List HostRow} {database : Database} {added : List Host}

/-- Among hosts of distinct identifiers none is known from the hosts before it. -/
theorem not_known_before (distinct : DistinctIds hosts) {index : Nat} (inside : index < hosts.length) :
    ¬ Known [] ((hosts.map some).take index) hosts[index].id := by
  rintro (stored | ⟨other, earlier, same⟩)
  · cases stored
  · rw [← List.map_take] at earlier
    obtain ⟨_, before, held⟩ := List.mem_map.1 earlier
    cases held
    obtain ⟨place, bound, rfl⟩ := List.mem_take_iff_getElem.1 before
    exact List.pairwise_iff_getElem.1 distinct place index _ inside (by omega) same

/-- Hosts of distinct identifiers that the table takes are no faulty records of an empty database. -/
theorem faultFree_of_distinct (skipExisting : Bool) (distinct : DistinctIds hosts)
    (storable : ∀ host ∈ hosts, Storable host) : FaultFree skipExisting [] (hosts.map some) := by
  intro index inside
  rw [List.length_map] at inside
  rw [List.getElem_map]
  rintro ⟨-, known | refused⟩
  · exact not_known_before distinct inside known
  · exact refused (storable _ (List.getElem_mem inside))

/-- All of them are new. -/
theorem first_iff_mem (distinct : DistinctIds hosts) {host : Host} :
    First [] (hosts.map some) host ↔ host ∈ hosts := by
  constructor
  · rintro ⟨index, inside, here, -⟩
    rw [List.length_map] at inside
    rw [List.getElem_map, Option.some.injEq] at here
    exact here ▸ List.getElem_mem inside
  · intro among
    obtain ⟨index, inside, rfl⟩ := List.getElem_of_mem among
    exact ⟨index, by rwa [List.length_map], List.getElem_map .., not_known_before distinct inside⟩

/-! ### Listing -/

/-- Whether a host comes before another by account and then by identifier. -/
def Earlier (left right : Host) : Prop :=
  left.account < right.account ∨ left.account = right.account ∧ left.id < right.id

theorem byAccount_iff {left right : HostRow} :
    byAccount left right = true ↔ toLex (left.account, left.id) ≤ toLex (right.account, right.id) := by
  rw [Prod.Lex.toLex_le_toLex, byAccount, Bool.or_eq_true, Bool.and_eq_true, Bool.not_eq_true',
    decide_eq_true_eq, decide_eq_true_eq, decide_eq_false_iff_not, String.not_lt]

/-- Of two hosts with different identifiers whose rows are in order, the first comes before the other. -/
theorem earlier_of_byAccount {left right : Host} (inOrder : byAccount (written left) (written right) = true)
    (apart : left.id ≠ right.id) : Earlier left right := by
  rw [byAccount_iff, Prod.Lex.toLex_le_toLex] at inOrder
  rcases inOrder with before | ⟨same, notAfter⟩
  · exact Or.inl before
  · rcases AscendingKey.total left.id right.id with less | equal | greater
    · exact Or.inr ⟨same, less⟩
    · exact absurd equal apart
    · exact absurd greater (text_le_text.1 notAfter)

/-- The hosts of a database are listed by account and identifier. -/
theorem listHosts_of_rows (stored : database.hosts = some (hosts.map written)) (distinct : DistinctIds hosts)
    (restorable : ∀ host ∈ hosts, Restorable host) :
    ∃ listed, database.listHosts none = .ok listed ∧ listed.Perm (hosts.map Host.inUtc) ∧
      listed.Pairwise Earlier := by
  let sorted := hosts.mergeSort fun left right => byAccount (written left) (written right)
  have same : sorted.Perm hosts := List.mergeSort_perm ..
  have rows : sorted.map written = (hosts.map written).mergeSort byAccount :=
    List.map_mergeSort fun _ _ _ _ => rfl
  have inOrder : sorted.Pairwise fun left right => byAccount (written left) (written right) = true := by
    apply List.pairwise_mergeSort
    · intro first second third
      simp only [byAccount_iff]
      exact le_trans
    · intro left right
      simp only [Bool.or_eq_true, byAccount_iff]
      exact le_total _ _
  refine ⟨sorted.map Host.inUtc, ?_, same.map _, ?_⟩
  · have decoded := decodeAll_written fun host among => restorable host (same.mem_iff.1 among)
    simp only [listHosts, Database.rows, stored, List.filter_true, ← rows, decoded]
  · refine List.pairwise_map.2 ((inOrder.and (distinct.perm same.symm)).imp ?_)
    exact fun both => earlier_of_byAccount both.1 both.2

/-- What a database that hosts were exported to gives back: it lists all of them, by account and
identifier, and finds each; their modification times are in UTC. -/
structure GivesBack (hosts : List Host) (database : Database) : Prop where
  listed : ∃ listed, database.listHosts none = .ok listed ∧ listed.Perm (hosts.map Host.inUtc) ∧
    listed.Pairwise Earlier
  found : ∀ host ∈ hosts, database.getHost host.id = .ok (some host.inUtc)

/-- Hosts of distinct identifiers that a database takes can be written one record a line, and importing a
file that holds these lines into a database without hosts adds all of them, as they were. -/
theorem importFile_exported (supported : database.Supported) (noRows : database.hosts.getD [] = [])
    (distinct : DistinctIds hosts) (exportable : ∀ host ∈ hosts, Exportable host) :
    ∃ lines, hosts.mapM Host.line = some lines ∧
      ∀ bytes file skipExisting, Holds (lines.map Text.utf8) bytes →
        ∃ after, importFile file (some (fileLines bytes)) skipExisting database =
            (.ok ⟨hosts.length, 0⟩, after) ∧
          GivesBack hosts after := by
  obtain ⟨lines, exported, sound, read⟩ := exists_lines exportable
  refine ⟨lines, exported, fun bytes file skipExisting holds => ?_⟩
  have faultFree := faultFree_of_distinct skipExisting distinct fun host among =>
    (exportable host among).storable
  rw [fileLines_of_holds holds (fun line among => (sound line among).1)
    fun line among => (sound line among).2]
  have cases := importFile_cases supported file skipExisting (lines.map some)
  rw [noRows, read] at cases
  rcases cases with ⟨faulty, -⟩ | ⟨added, summary, imported, progress⟩
  · exact absurd faultFree faulty
  have same : added.Perm hosts := by
    apply (List.perm_ext_iff_of_nodup progress.distinct.nodup distinct.nodup).2
    exact fun host => (progress.firsts host).trans (first_iff_mem distinct)
  have counts : summary = ⟨hosts.length, 0⟩ := by
    have importedAll := progress.imported
    have counted := progress.counted
    rw [List.length_map] at counted
    rw [same.length_eq] at importedAll
    cases summary
    simp only [ImportSummary.mk.injEq] at *
    omega
  have restorable : ∀ host ∈ added, Restorable host := fun host among =>
    (exportable host (same.mem_iff.1 among)).restorable
  have stored : (holding database.migrate.2 [] added).hosts = some (added.map written) := rfl
  obtain ⟨listed, lists, listedSame, inOrder⟩ := listHosts_of_rows stored progress.distinct restorable
  refine ⟨_, imported.trans (by rw [counts]), ?_⟩
  refine ⟨⟨listed, lists, listedSame.trans (same.map _), inOrder⟩, fun host among => ?_⟩
  exact progress.getHost_holding (same.mem_iff.2 among) (exportable host among).restorable

/-- Two hosts, the larger identifier first: one with line breaks and quotes in its texts, a float and a list
among its facts and a modification time at another offset, one without facts. -/
theorem two_hosts_exported :
    let facts : Json.Members := [("fqdn", .string "no\nde \"é\""),
      ("load", .number (.real ⟨false, 2 ^ 52, -53⟩)), ("ip_addresses", .array [.string "10.0.0.1", .null])]
    let first := { Inventory.exampleHost ⟨2, by decide⟩ "acct-1" (.object facts) 0 with
      displayName := some "a\nb", modifiedOn := ⟨1767232801000000000, 7200⟩ }
    let second := Inventory.exampleHost ⟨1, by decide⟩ "acct-1" (.object []) 1
    Database.empty.Supported ∧ Database.empty.hosts.getD [] = [] ∧ DistinctIds [first, second] ∧
      (∀ host ∈ [first, second], Exportable host) ∧
        ∃ lines, [first, second].mapM Host.line = some lines ∧
          ∃ after, importFile "hosts.ndjson" (some (fileLines (terminated (lines.map Text.utf8)))) false
              Database.empty = (.ok ⟨2, 0⟩, after) ∧
            GivesBack [first, second] after := by
  intro facts first second
  have distinct : DistinctIds [first, second] := by simp [DistinctIds, first, second, Inventory.exampleHost]
  have takes {host : Host} (storable : Storable host) :
      ∃ database next : Database, database.insertHost host = .ok next :=
    ⟨⟨none, some [], none⟩, _, insertHost_of_storable rfl rfl storable⟩
  have recordable : Json.Recordable (Json.Dialect.records.depth - 1) (.object facts) := by
    have list : Json.Recordable 124 (.array [.string "10.0.0.1", .null]) :=
      .array (List.forall_mem_cons.2 ⟨.string _, List.forall_mem_singleton.2 .null⟩)
    refine .object (by decide) ?_
    simp only [facts, List.forall_mem_cons]
    exact ⟨.string _, .real (by decide +kernel), list.mono (by decide), by simp⟩
  have exportable : ∀ host ∈ [first, second], Exportable host := by
    rw [List.forall_mem_cons, List.forall_mem_singleton]
    constructor
    · exact ⟨takes (by decide +kernel), by decide, by decide, recordable⟩
    · exact ⟨takes (by decide +kernel), by decide, by decide,
        .object (by decide) fun _ among => nomatch among⟩
  obtain ⟨lines, exported, imports⟩ := importFile_exported Reached.empty.supported rfl distinct exportable
  exact ⟨Reached.empty.supported, rfl, distinct, exportable, lines, exported,
    imports _ "hosts.ndjson" false (Or.inl rfl)⟩

end Database

end HostPruning
