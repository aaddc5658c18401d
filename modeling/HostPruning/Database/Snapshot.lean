import HostPruning.Database.Schema
import HostPruning.Json.Reader

/-!
# Database snapshots

A database is kept in a file as a snapshot: a heading and the three tables, each table a list
of its rows and each row a list of its columns. A missing table is null. What a database
encodes to decodes to the same database.
-/

namespace HostPruning.Database

/-- The mark that a snapshot begins with. -/
def snapshotHeading : String := "host inventory"

/-- Decode a text or null. -/
def optionalText? : Json → Option (Option String)
  | .null => some none
  | .string text => some (some text)
  | _ => none

/-- Encode the columns of a host's row. -/
def hostColumns (row : HostRow) : Json :=
  .array
    [.string row.id, .string row.account, .ofOptionalText row.displayName, .ofOptionalText row.reporter,
     .string row.kind, .string row.facts, .ofInt row.modifiedNanos, .string row.staleText]

/-- Decode the columns of a host's row. -/
def hostOfColumns : Json → Option HostRow
  | .array
      [.string id, .string account, displayName, reporter, .string kind, .string facts,
       .number (.integer modifiedNanos), .string staleText] => do
      return { id, account, displayName := ← optionalText? displayName,
               reporter := ← optionalText? reporter, kind, facts, modifiedNanos, staleText }
  | _ => none

/-- Encode lifecycle offsets. -/
def offsetColumns (offsets : Lifecycle.Offsets) : Json :=
  .array [.ofInt offsets.stale, .ofInt offsets.warning, .ofInt offsets.delete]

/-- Decode lifecycle offsets. -/
def offsetsOfColumns : Json → Option Lifecycle.Offsets
  | .array [.number (.integer stale), .number (.integer warning), .number (.integer delete)] =>
      some ⟨stale, warning, delete⟩
  | _ => none

/-- Encode the columns of a policy's row. -/
def policyColumns (entry : String × StoredPolicy) : Json :=
  .array
    [.string entry.1, offsetColumns entry.2.policy.conventional,
     offsetColumns entry.2.policy.immutable, .string entry.2.updatedAt]

/-- Decode the columns of a policy's row. -/
def policyOfColumns : Json → Option (String × StoredPolicy)
  | .array [.string account, conventional, immutable, .string updatedAt] => do
      return (account,
        ⟨⟨← offsetsOfColumns conventional, ← offsetsOfColumns immutable⟩, updatedAt⟩)
  | _ => none

/-- Encode a table by its rows. -/
def tableToJson (encode : α → Json) : Option (List α) → Json
  | none => .null
  | some rows => .array (rows.map encode)

/-- Decode a table by its rows. -/
def tableOfJson (decode : Json → Option α) : Json → Option (Option (List α))
  | .null => some none
  | .array rows => (rows.mapM decode).map some
  | _ => none

/-- The policies of some entries, which have to be in order. -/
def policiesOfEntries? (entries : List (String × StoredPolicy)) : Option (Table String StoredPolicy) :=
  if ascending : entries.Pairwise (fun earlier later => earlier.1 < later.1) then
    some ⟨entries, ascending⟩
  else none

/-- Decode the table of policies. -/
def policiesOfJson (value : Json) : Option (Option (Table String StoredPolicy)) :=
  match tableOfJson policyOfColumns value with
  | none => none
  | some none => some none
  | some (some entries) => (policiesOfEntries? entries).map some

/-- Encode a database. -/
def toJson (database : Database) : Json :=
  .array
    [.string snapshotHeading, tableToJson .ofInt database.versions, tableToJson hostColumns database.hosts,
     tableToJson policyColumns (database.policies.map Table.entries)]

/-- Decode a database. -/
def ofJson : Json → Option Database
  | .array [.string heading, versions, hosts, policies] =>
      if heading = snapshotHeading then do
        return ⟨← tableOfJson Json.int? versions, ← tableOfJson hostOfColumns hosts, ← policiesOfJson policies⟩
      else none
  | _ => none

/-- A row of a host is read back. -/
theorem hostOfColumns_hostColumns (row : HostRow) : hostOfColumns (hostColumns row) = some row := by
  rcases row with ⟨_, _, displayName, reporter, _, _, _, _⟩
  cases displayName <;> cases reporter <;> rfl

/-- A row of a policy is read back. -/
theorem policyOfColumns_policyColumns (entry : String × StoredPolicy) :
    policyOfColumns (policyColumns entry) = some entry := rfl

/-- A table is read back when its rows are. -/
theorem tableOfJson_tableToJson {encode : α → Json} {decode : Json → Option α}
    (inverse : ∀ row, decode (encode row) = some row) (table : Option (List α)) :
    tableOfJson decode (tableToJson encode table) = some table := by
  cases table with
  | none => rfl
  | some rows =>
      have readBack : (rows.map encode).mapM decode = some rows := by
        induction rows with
        | nil => rfl
        | cons row rest inductionHypothesis => simp [inverse, inductionHypothesis]
      simp [tableOfJson, tableToJson, readBack]

/-- The table of policies is read back. -/
theorem policiesOfJson_tableToJson (policies : Option (Table String StoredPolicy)) :
    policiesOfJson (tableToJson policyColumns (policies.map Table.entries)) = some policies := by
  rw [policiesOfJson, tableOfJson_tableToJson policyOfColumns_policyColumns]
  cases policies with
  | none => rfl
  | some table =>
      have readBack : policiesOfEntries? table.entries = some table := dif_pos table.ascending
      exact congrArg (Option.map some) readBack

/-- A database is read back from its snapshot. -/
theorem ofJson_toJson (database : Database) : ofJson database.toJson = some database := by
  have versionBack (version : Int) : (Json.ofInt version).int? = some version := rfl
  simp [ofJson, toJson, policiesOfJson_tableToJson, tableOfJson_tableToJson versionBack,
    tableOfJson_tableToJson hostOfColumns_hostColumns]

/-- The bytes of a snapshot. -/
def snapshot (database : Database) : List UInt8 := Text.utf8 database.toJson.render

/-- Read a snapshot. -/
def ofSnapshot? (bytes : List UInt8) : Option Database :=
  ((String.fromUTF8? ⟨bytes.toArray⟩).bind Json.read).bind ofJson

end HostPruning.Database
