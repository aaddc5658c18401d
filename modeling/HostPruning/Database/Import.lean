import HostPruning.Database.Store

/-!
# Importing hosts

A file of hosts has one JSON record a line. An import is one transaction: it works on a
copy of the database, which takes its place only when every line went in. Blank
lines are passed over but counted.
-/

namespace HostPruning.Database

/-- A line of a file: its text, or nothing when its bytes are no UTF-8. -/
abbrev Line := Option String

/-- Split bytes at line feeds, given the bytes of the line begun so far, last one first. A
line feed at the very end starts no further line. -/
def splitLinesAfter (begun : List UInt8) : List UInt8 → List (List UInt8)
  | [] => if begun.isEmpty then [] else [begun.reverse]
  | byte :: rest =>
      if byte = 10 then begun.reverse :: splitLinesAfter [] rest
      else splitLinesAfter (byte :: begun) rest

/-- The lines of some bytes. -/
def splitLines (bytes : List UInt8) : List (List UInt8) := splitLinesAfter [] bytes

/-- The text of some bytes. -/
def lineText (bytes : List UInt8) : Line := String.fromUTF8? ⟨bytes.toArray⟩

/-- The lines of a file. -/
def fileLines (bytes : List UInt8) : List Line := (splitLines bytes).map lineText

/-- What an import did. -/
structure ImportSummary where
  imported : Nat
  skipped : Nat
deriving DecidableEq

/-- Encode an import's summary. -/
def ImportSummary.toJson (summary : ImportSummary) : Json :=
  .object
    [("imported_hosts", .ofNat summary.imported), ("skipped_existing_hosts", .ofNat summary.skipped)]

/-- Import one host: one that is stored already is skipped or refused. -/
def importHost (skipExisting : Bool) (host : Host) (summary : ImportSummary) (database : Database) :
    Except DatabaseFault (ImportSummary × Database) :=
  match database.rows (some ("failed to check if host exists: " ++ host.id.text)) with
  | .error fault => .error fault
  | .ok rows =>
      if hasId rows host.id.text then
        if skipExisting then .ok ({ summary with skipped := summary.skipped + 1 }, database)
        else .error (.alreadyStored host.id)
      else match database.insertHost host with
        | .error fault => .error fault
        | .ok database => .ok ({ summary with imported := summary.imported + 1 }, database)

/-- Import the lines of a file, of which the first has the given number. -/
def importLines (file : String) (skipExisting : Bool) :
    Nat → List Line → ImportSummary → Database → Except DatabaseFault (ImportSummary × Database)
  | _, [], summary, database => .ok (summary, database)
  | number, none :: _, _, _ => .error (.lineUnreadable file number)
  | number, some line :: rest, summary, database =>
      let text := Text.trim line
      if text.isEmpty then importLines file skipExisting (number + 1) rest summary database
      else match Host.ofText text with
        | none => .error (.lineUndecodable file number)
        | some host =>
            match importHost skipExisting host summary database with
            | .error fault => .error fault
            | .ok (summary, database) =>
                importLines file skipExisting (number + 1) rest summary database

/-- Migrate, then import a file in one transaction: a failure leaves the migrated database as
it was. The file is opened only after the migration; `none` means that it cannot be. -/
def importFile (file : String) (content : Option (List Line)) (skipExisting : Bool)
    (database : Database) : Except DatabaseFault ImportSummary × Database :=
  match database.migrate with
  | (.error fault, database) => (.error fault, database)
  | (.ok (), database) =>
      match content with
      | none => (.error (.fileMissing file), database)
      | some lines =>
          match importLines file skipExisting 1 lines ⟨0, 0⟩ database with
          | .error fault => (.error fault, database)
          | .ok (summary, imported) => (.ok summary, imported)

end HostPruning.Database
