import HostPruning.Lifecycle

/-!
# Options and counts of a pruning run

The options say how much is read at once, what happens when a removed host's event
cannot be handed over, and what is left alone. The summary counts what a run did, for
one account or for all.
-/

namespace HostPruning.Pruning

/-- What to do when a host was deleted and its event could not be handed over. -/
inductive EmitFailure where
  /-- Count it and go on. -/
  | continue
  /-- End the run with the failure. -/
  | abort
deriving DecidableEq

/-- The name of a choice. -/
def EmitFailure.name : EmitFailure → String
  | .continue => "continue"
  | .abort => "abort"

/-- The choice a name stands for. -/
def EmitFailure.parse : String → Option EmitFailure
  | "continue" => some .continue
  | "abort" => some .abort
  | _ => none

/-- The options of a run. -/
structure Options where
  chunkSize : Nat := 1000
  emitFailure : EmitFailure := .abort
  dryRun : Bool := false
  excludeCulled : Bool := false
deriving DecidableEq

namespace Options

instance : Inhabited Options := ⟨⟨1000, .abort, false, false⟩⟩

/-- The options in effect where nothing else is said. -/
def standard : Options := ⟨1000, .abort, false, false⟩

/-- A page has to hold at least one host. -/
def validate (options : Options) : Except SettingDefect Unit :=
  if options.chunkSize = 0 then .error .chunkSizeZero else .ok ()

open Json in
/-- Decode options; all have defaults. -/
def ofJson (value : Json) : Option Options := do
  let fields ← fields? ["chunk_size", "emit_failure", "dry_run", "exclude_culled"] value
  let chunkSize ← defaulted standard.chunkSize (unsigned? 64) fields 0
  let emitFailure ← defaulted standard.emitFailure (choice? EmitFailure.parse) fields 1
  let dryRun ← defaulted standard.dryRun bool? fields 2
  let excludeCulled ← defaulted standard.excludeCulled bool? fields 3
  return { chunkSize, emitFailure, dryRun, excludeCulled }

/-- Encode options. -/
def toJson (options : Options) : Json :=
  .object
    [("chunk_size", .ofNat options.chunkSize),
     ("emit_failure", .string options.emitFailure.name),
     ("dry_run", .bool options.dryRun),
     ("exclude_culled", .bool options.excludeCulled)]

end Options

/-- What a run did. -/
structure Summary where
  accountsProcessed : Nat := 0
  hostsScanned : Nat := 0
  duplicatesFound : Nat := 0
  hostsDeleted : Nat := 0
  eventsEmitted : Nat := 0
  eventsFailed : Nat := 0
  malformedSkipped : Nat := 0
  culledSkipped : Nat := 0
  interrupted : Bool := false
  dryRun : Bool := false
deriving DecidableEq

namespace Summary

/-- Add the counts of an account to those of a run. -/
def absorb (run account : Summary) : Summary where
  accountsProcessed := run.accountsProcessed + account.accountsProcessed
  hostsScanned := run.hostsScanned + account.hostsScanned
  duplicatesFound := run.duplicatesFound + account.duplicatesFound
  hostsDeleted := run.hostsDeleted + account.hostsDeleted
  eventsEmitted := run.eventsEmitted + account.eventsEmitted
  eventsFailed := run.eventsFailed + account.eventsFailed
  malformedSkipped := run.malformedSkipped + account.malformedSkipped
  culledSkipped := run.culledSkipped + account.culledSkipped
  interrupted := run.interrupted || account.interrupted
  dryRun := run.dryRun

/-- Encode a summary. -/
def toJson (summary : Summary) : Json :=
  .object
    [("accounts_processed", .ofNat summary.accountsProcessed),
     ("hosts_scanned", .ofNat summary.hostsScanned),
     ("duplicates_found", .ofNat summary.duplicatesFound),
     ("hosts_deleted", .ofNat summary.hostsDeleted),
     ("events_emitted", .ofNat summary.eventsEmitted),
     ("events_failed", .ofNat summary.eventsFailed),
     ("malformed_skipped", .ofNat summary.malformedSkipped),
     ("culled_skipped", .ofNat summary.culledSkipped),
     ("interrupted", .bool summary.interrupted),
     ("dry_run", .bool summary.dryRun)]

end Summary

end HostPruning.Pruning
