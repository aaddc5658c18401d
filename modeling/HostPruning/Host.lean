import HostPruning.Failure
import HostPruning.Json.Record
import HostPruning.Json.Reader
import HostPruning.Text.Blank

/-!
# Hosts and delete events

A host record is one reporting agent's view of a machine. Its canonical facts are kept
as they were written, because a malformed fact must not prevent the record from being
loaded. A delete event says which host was removed in favour of which survivor. Both are
read from and written to JSON; reading is the authority on what counts as a record.
-/

namespace HostPruning

/-- The kinds of hosts; each has lifecycle offsets of its own. -/
inductive HostKind where
  | conventional
  | edge
deriving DecidableEq

/-- The name of a kind. -/
def HostKind.name : HostKind → String
  | .conventional => "conventional"
  | .edge => "edge"

/-- The kind a name stands for. -/
def HostKind.parse : String → Option HostKind
  | "conventional" => some .conventional
  | "edge" => some .edge
  | _ => none

/-- A host of an account. -/
structure Host where
  id : HostId
  account : String
  displayName : Option String
  reporter : Option String
  kind : HostKind
  facts : Json.Members
  modifiedOn : Moment
  staleTimestamp : Moment

namespace Host

/-- A stored host names the account it belongs to. -/
def validate (host : Host) : Except StorageFault Unit :=
  if Text.blank host.account then .error (.noAccount host.id) else .ok ()

/-- The names of a host's fields, in their declared order. -/
def fieldNames : List String :=
  ["id", "account", "display_name", "reporter", "host_type", "canonical_facts", "modified_on",
    "stale_timestamp"]

end Host

namespace Json

/-- Decode an identifier. -/
def hostId? (value : Json) : Option HostId := value.text?.bind HostId.parse?

/-- Decode a moment. -/
def moment? (value : Json) : Option Moment := value.text?.bind Time.moment?

/-- Decode a mapping of facts; repeated names are settled. -/
def facts? (value : Json) : Option Members := value.dedup.members?

/-- Encode a moment; one without a text has no encoding. -/
def ofMoment (moment : Moment) : Option Json := (Time.rfc3339 moment).map string

/-- Encode an identifier. -/
def ofHostId (id : HostId) : Json := string id.text

/-- Encode a text that may be missing. -/
def ofOptionalText : Option String → Json := ofOption string

end Json

open Json in
/-- Decode a host. -/
def Host.ofJson (value : Json) : Option Host := do
  let fields ← fields? Host.fieldNames value
  let id ← required hostId? fields 0
  let account ← required text? fields 1
  let displayName ← optional text? fields 2
  let reporter ← optional text? fields 3
  let kind ← defaulted .conventional (choice? HostKind.parse) fields 4
  let facts ← required facts? fields 5
  let modifiedOn ← required moment? fields 6
  let staleTimestamp ← required moment? fields 7
  return { id, account, displayName, reporter, kind, facts, modifiedOn, staleTimestamp }

open Json in
/-- Encode a host; one whose moments have no text has no encoding. -/
def Host.toJson (host : Host) : Option Json := do
  let modifiedOn ← ofMoment host.modifiedOn
  let staleTimestamp ← ofMoment host.staleTimestamp
  return object
    [("id", ofHostId host.id),
     ("account", string host.account),
     ("display_name", ofOptionalText host.displayName),
     ("reporter", ofOptionalText host.reporter),
     ("host_type", string host.kind.name),
     ("canonical_facts", object host.facts),
     ("modified_on", modifiedOn),
     ("stale_timestamp", staleTimestamp)]

/-- Decode a host from a line of text. -/
def Host.ofText (text : String) : Option Host := (Json.readRepeated text).bind Host.ofJson

/-- The notice that a host was removed as a duplicate. -/
structure DeleteEvent where
  kind : String
  id : HostId
  account : String
  displayName : Option String
  reporter : Option String
  facts : Json.Members
  survivor : HostId
  timestamp : Moment

namespace DeleteEvent

/-- The kind of every event a run publishes. -/
def deleteKind : String := "delete"

/-- The notice for a removed host. -/
def ofDuplicate (removed : Host) (survivor : HostId) (timestamp : Moment) : DeleteEvent where
  kind := deleteKind
  id := removed.id
  account := removed.account
  displayName := removed.displayName
  reporter := removed.reporter
  facts := removed.facts
  survivor := survivor
  timestamp := timestamp

/-- The names of an event's fields, in their declared order. -/
def fieldNames : List String :=
  ["type", "id", "account", "display_name", "reporter", "canonical_facts", "survivor_id",
    "timestamp"]

open Json in
/-- Decode an event. -/
def ofJson (value : Json) : Option DeleteEvent := do
  let fields ← fields? fieldNames value
  let kind ← required text? fields 0
  let id ← required hostId? fields 1
  let account ← required text? fields 2
  let displayName ← optional text? fields 3
  let reporter ← optional text? fields 4
  let facts ← required facts? fields 5
  let survivor ← required hostId? fields 6
  let timestamp ← required moment? fields 7
  return { kind, id, account, displayName, reporter, facts, survivor, timestamp }

open Json in
/-- The members of an encoded event, given the encoding of its timestamp. -/
def members (event : DeleteEvent) (timestamp : Json) : Members :=
  [("type", string event.kind),
   ("id", ofHostId event.id),
   ("account", string event.account),
   ("display_name", ofOptionalText event.displayName),
   ("reporter", ofOptionalText event.reporter),
   ("canonical_facts", object event.facts),
   ("survivor_id", ofHostId event.survivor),
   ("timestamp", timestamp)]

/-- Encode an event; one whose timestamp has no text has no encoding. -/
def toJson (event : DeleteEvent) : Option Json :=
  (Json.ofMoment event.timestamp).map fun timestamp => .object (event.members timestamp)

end DeleteEvent

/-- An event with the host it is filed under. -/
structure Envelope where
  key : HostId
  event : DeleteEvent

namespace Envelope

open Json in
/-- Decode an envelope. -/
def ofJson (value : Json) : Option Envelope := do
  let fields ← fields? ["key", "value"] value
  let key ← required hostId? fields 0
  let event ← required DeleteEvent.ofJson fields 1
  return { key, event }

/-- Encode an envelope. -/
def toJson (envelope : Envelope) : Option Json :=
  envelope.event.toJson.map fun event => .object [("key", .ofHostId envelope.key), ("value", event)]

/-- Decode an envelope from a line of text. -/
def ofText (text : String) : Option Envelope := (Json.readRepeated text).bind ofJson

/-- The line of an envelope, without its line break. -/
def text (envelope : Envelope) : Option String := envelope.toJson.map Json.render

end Envelope

end HostPruning
