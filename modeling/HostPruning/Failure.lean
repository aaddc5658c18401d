import HostPruning.HostId
import HostPruning.Json.Basic
import HostPruning.Time.Rfc3339
import HostPruning.Text.Quoted

/-!
# Failures

A failure is a cause; its wording is derived from it in one place. `Failure` holds what
a pruning run can end with. `DatabaseFault` holds what the database refuses on its own
account: it has a chain of texts, of which a direct caller sees the outermost and a
pruning run sees all.
-/

namespace HostPruning

/-- What is wrong with a known fact of a host. -/
inductive FactDefect where
  /-- A single-valued fact is not a string. -/
  | notText (key : String) (received : Json.Kind)
  /-- A multi-valued fact is not a list. -/
  | notList (key : String) (received : Json.Kind)
  /-- An entry of a multi-valued fact is not a string. -/
  | entryNotText (key : String) (received : Json.Kind)
deriving DecidableEq

/-- The wording of a fact defect. -/
def FactDefect.message : FactDefect → String
  | .notText key received => key ++ " MUST be a string (received " ++ received.name ++ ")"
  | .notList key received => key ++ " MUST be a list of strings (received " ++ received.name ++ ")"
  | .entryNotText key received => key ++ " entries MUST be strings (received " ++ received.name ++ ")"

/-- What is wrong with the three lifecycle offsets of a kind of hosts. -/
inductive OffsetsDefect where
  | staleNotPositive
  | warningBeforeStale
  | deleteBeforeWarning
  | deleteTooLate
deriving DecidableEq

/-- The longest time until deletion: a hundred years of 365 days, in seconds. -/
def greatestOffset : Int := 100 * 365 * 86400

/-- The wording of an offsets defect; the label says which kind of hosts. -/
def OffsetsDefect.message (label : String) : OffsetsDefect → String
  | .staleNotPositive => label ++ ".time_to_stale MUST be > 0"
  | .warningBeforeStale => label ++ ".time_to_stale_warning MUST be >= time_to_stale"
  | .deleteBeforeWarning => label ++ ".time_to_delete MUST be >= time_to_stale_warning"
  | .deleteTooLate => label ++ ".time_to_delete MUST be <= " ++ toString greatestOffset ++ " seconds"

/-- What is wrong with the settings of a message broker. -/
inductive BrokerDefect where
  | hostEmpty
  | clientEmpty
  | topicEmpty
  | limitZero
deriving DecidableEq

/-- The wording of a broker defect. -/
def BrokerDefect.message : BrokerDefect → String
  | .hostEmpty => "mqtt.host MUST NOT be empty"
  | .clientEmpty => "mqtt.client_id MUST NOT be empty"
  | .topicEmpty => "mqtt.topic_prefix MUST NOT be empty"
  | .limitZero => "mqtt.capacity and mqtt.ack_timeout_secs MUST be positive"

/-- What is wrong with a setting. -/
inductive SettingDefect where
  | chunkSizeZero
  | offsets (label : String) (defect : OffsetsDefect)
  | broker (defect : BrokerDefect)
  /-- The event file could not be created. -/
  | eventFile (path : String) (reason : String)
deriving DecidableEq

/-- The wording of a setting defect. -/
def SettingDefect.message : SettingDefect → String
  | .chunkSizeZero => "chunk_size MUST be a positive integer"
  | .offsets label defect => defect.message label
  | .broker defect => defect.message
  | .eventFile path reason => "failed to create event file " ++ path ++ ": " ++ reason

/-- The wording of a setting defect with its heading. -/
def SettingDefect.report (defect : SettingDefect) : String := "configuration error: " ++ defect.message

/-- Why an event was not handed over or confirmed. -/
inductive DeliveryFault where
  /-- The receiver said so, in these words. -/
  | reported (message : String)
  /-- The event file refused the bytes. -/
  | write (reason : String)
  /-- The event file could not be flushed. -/
  | flush (reason : String)
  /-- The event has no text. -/
  | encoding
deriving DecidableEq

/-- The wording of a delivery fault. -/
def DeliveryFault.message : DeliveryFault → String
  | .reported message => message
  | .write reason => "failed to write event: " ++ reason
  | .flush reason => "failed to flush event file: " ++ reason
  | .encoding => "failed to serialize event: the timestamp has no text"

/-- The wording for a host that lacks an account. -/
def noAccountMessage (host : HostId) : String :=
  "storage error: host " ++ host.text ++ " MUST have an account"

/-- The wording for a text that is not an identifier. -/
def badIdMessage (raw : String) (defect : HostId.Defect) : String :=
  "storage error: invalid host id " ++ raw ++ ": " ++ defect.message

/-- What the database refuses. -/
inductive DatabaseFault where
  | noAccount (host : HostId)
  | modifiedOutOfRange (host : HostId)
  | staleWithoutText
  | insertRefused (host : HostId)
  | alreadyStored (host : HostId)
  /-- A table is missing; the context says what was being done. -/
  | tableMissing (context : Option String) (table : String)
  | rowId (raw : String) (defect : HostId.Defect)
  | rowKind (raw : String)
  | rowFacts (host : HostId)
  | rowTime (raw : String) (defect : Time.TextDefect)
  | pageTooLarge
  | blankAccount
  | invalidLifecycle (defect : SettingDefect)
  | policyRefused (account : String)
  | newerSchema (version latest : Int)
  | unknownMigration (version : Int)
  | fileMissing (file : String)
  | lineUnreadable (file : String) (line : Nat)
  | lineUndecodable (file : String) (line : Nat)
  /-- A fact key that cannot stand in a path. -/
  | keyNotPlain (key : String)
  /-- A condition that is deeper than the database reads. -/
  | expressionTooDeep
  /-- A query with more values than the database takes, and where the first one too many stands. -/
  | tooManyParameters (query : String) (offset : Nat)
  | cannotOpen (path : String)
  | notADatabase
deriving DecidableEq

/-- The texts of a database fault, outermost first. -/
def DatabaseFault.chain : DatabaseFault → List String
  | .noAccount host => ["host validation failed: " ++ noAccountMessage host]
  | .modifiedOutOfRange host => ["modified_on out of range for host " ++ host.text]
  | .staleWithoutText => ["failed to format RFC3339 timestamp"]
  | .insertRefused host => ["failed to insert host " ++ host.text]
  | .alreadyStored host => ["host already exists: " ++ host.text]
  | .tableMissing context table =>
      context.toList ++ ["no such table: " ++ table, "Error code 1: SQL error or missing database"]
  | .rowId raw defect => [badIdMessage raw defect]
  | .rowKind raw => ["unknown host_type: " ++ raw]
  | .rowFacts host => ["failed to decode canonical_facts for host " ++ host.text]
  | .rowTime raw defect => ("invalid RFC3339 timestamp: " ++ raw) :: defect.causes
  | .pageTooLarge => ["page size out of range", "number too large to fit in target type"]
  | .blankAccount => ["account MUST NOT be blank"]
  | .invalidLifecycle defect => ["staleness validation failed: " ++ defect.report]
  | .policyRefused account => ["failed to store staleness for account " ++ account]
  | .newerSchema version latest =>
      ["unsupported schema version " ++ toString version ++ "; expected at most " ++ toString latest]
  | .unknownMigration version => ["no migration defined for schema version " ++ toString version]
  | .fileMissing file => ["failed to open NDJSON file " ++ file]
  | .lineUnreadable file line => ["failed to read line " ++ toString line ++ " from " ++ file]
  | .lineUndecodable file line => ["failed to parse NDJSON row " ++ toString line ++ " from " ++ file]
  | .keyNotPlain key => ["fact key " ++ Text.quoted key ++ " is not a plain identifier"]
  | .expressionTooDeep =>
      ["failed to prepare candidate query", "Expression tree is too large (maximum depth 1000)",
        "Error code 1: SQL error or missing database"]
  | .tooManyParameters query offset =>
      ["failed to prepare candidate query",
        "too many SQL variables in " ++ query ++ " at offset " ++ toString offset,
        "Error code 1: SQL error or missing database"]
  | .cannotOpen path => ["failed to open sqlite database at " ++ path]
  | .notADatabase => ["failed to configure sqlite pragmas"]

/-- The outermost text of a database fault. -/
def DatabaseFault.message (fault : DatabaseFault) : String := fault.chain.headD ""

/-- Why the host store failed. -/
inductive StorageFault where
  | badId (raw : String) (defect : HostId.Defect)
  | noAccount (host : HostId)
  | database (fault : DatabaseFault)
  /-- A failure that a rehearsal asked for; the text names the call. -/
  | injected (call : String)
deriving DecidableEq

/-- The wording of a storage fault, with its heading. -/
def StorageFault.report : StorageFault → String
  | .badId raw defect => badIdMessage raw defect
  | .noAccount host => noAccountMessage host
  | .database fault => "storage error: " ++ ": ".intercalate fault.chain
  | .injected call => "storage error: injected " ++ call ++ " failure"

/-- What a pruning run can end with. -/
inductive Failure where
  | storage (fault : StorageFault)
  | emission (host : HostId) (fault : DeliveryFault)
  | flush (fault : DeliveryFault)
  | malformedFacts (defect : FactDefect)
  | setting (defect : SettingDefect)
  /-- The pages allowed for one account ran out. -/
  | pagesExhausted
deriving DecidableEq

/-- The wording of a failure. -/
def Failure.message : Failure → String
  | .storage fault => fault.report
  | .emission host fault => "event emission failed for host " ++ host.text ++ ": " ++ fault.message
  | .flush fault => "event flush failed: " ++ fault.message
  | .malformedFacts defect => "malformed canonical facts: " ++ defect.message
  | .setting defect => defect.report
  | .pagesExhausted => "storage error: the scan of an account did not end"

end HostPruning
