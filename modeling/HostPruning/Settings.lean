import HostPruning.Events.Broker
import HostPruning.Pruning.Options
import HostPruning.Yaml.Decode

/-!
# Settings of a pruning job

The settings come from a YAML document. Each has a default, so that an empty document gives
the standard settings; a name that is no setting is refused. What is read is validated as a
whole: the page size first, then the lifecycle policy, then the broker.
-/

namespace HostPruning

/-- Where delete events go. -/
inductive Delivery where
  /-- To a file. -/
  | journal (path : String)
  /-- To a message broker. -/
  | broker (settings : Events.Broker)
deriving DecidableEq

namespace Delivery

/-- The file that events go to where nothing else is said. -/
def standardPath : String := "host_delete_events.ndjson"

/-- Encode a delivery: what it is, then its own settings. -/
def toJson : Delivery → Json
  | journal path => .object [("sink", .string "ndjson"), ("path", .string path)]
  | broker settings => .object (("sink", .string "mqtt") :: settings.members)

end Delivery

/-- The settings of a job. -/
structure Settings where
  chunkSize : Nat
  emitFailure : Pruning.EmitFailure
  excludeCulled : Bool
  policy : Lifecycle.Policy
  delivery : Delivery
deriving DecidableEq

/-- Why settings are refused. -/
inductive SettingsFault where
  /-- The text is no document of settings. -/
  | malformed
  | invalid (defect : SettingDefect)
deriving DecidableEq

/-- The wording of a settings fault. -/
def SettingsFault.message : SettingsFault → String
  | .malformed => "invalid configuration YAML"
  | .invalid defect => defect.report

namespace Settings

/-- The settings in effect where nothing else is said. -/
def standard : Settings :=
  ⟨Pruning.Options.standard.chunkSize, Pruning.Options.standard.emitFailure, false,
    Lifecycle.Policy.standard, .journal Delivery.standardPath⟩

/-- The options of a run under the settings. -/
def options (settings : Settings) : Pruning.Options :=
  ⟨settings.chunkSize, settings.emitFailure, false, settings.excludeCulled⟩

/-- Refuse settings with a defect. -/
def validate (settings : Settings) : Except SettingDefect Unit :=
  match settings.options.validate with
  | .error defect => .error defect
  | .ok () =>
      match settings.policy.validate with
      | .error defect => .error defect
      | .ok () =>
          match settings.delivery with
          | .journal _ => .ok ()
          | .broker broker => broker.validate

/-- Encode settings. -/
def toJson (settings : Settings) : Json :=
  .object
    [("chunk_size", .ofNat settings.chunkSize),
     ("emit_failure", .string settings.emitFailure.name),
     ("exclude_culled", .bool settings.excludeCulled),
     ("staleness", settings.policy.toJson),
     ("events", settings.delivery.toJson)]

open Yaml

/-- The value of a field that may be given once. -/
def once? (fields : List (String × Node)) (name : String) : Option (Option Node) :=
  match fields.filter fun field => field.1 = name with
  | [] => some none
  | [field] => some (some field.2)
  | _ => none

/-- Decode a field that has to be given once. -/
def required (decode : Node → Option α) (fields : List (String × Node)) (name : String) : Option α :=
  match once? fields name with
  | some (some node) => decode node
  | _ => none

/-- Decode a field that may be given once and has a value of its own otherwise. -/
def defaulted (fallback : α) (decode : Node → Option α) (fields : List (String × Node))
    (name : String) : Option α :=
  match once? fields name with
  | some (some node) => decode node
  | some none => some fallback
  | none => none

/-- Decode lifecycle offsets; all three are required and other names are ignored. -/
def offsets? (document : Document) (node : Node) : Option Lifecycle.Offsets := do
  let fields ← document.fields? node
  return ⟨← required document.signed64? fields "time_to_stale",
    ← required document.signed64? fields "time_to_stale_warning",
    ← required document.signed64? fields "time_to_delete"⟩

/-- Decode a lifecycle policy; other names are ignored. -/
def policy? (document : Document) (node : Node) : Option Lifecycle.Policy := do
  let fields ← document.fields? node
  return ⟨← defaulted .conventional (offsets? document) fields "conventional",
    ← defaulted .edge (offsets? document) fields "immutable"⟩

/-- The value of a content that may be missing. -/
def given (fallback : α) (decode : Content → Option α) : Option Content → Option α
  | none => some fallback
  | some content => decode content

/-- Decode broker settings; all have defaults. -/
def broker? (content : Content) : Option Events.Broker := do
  let [host, port, clientId, topicFront, keepAliveSeconds, answerSeconds, capacity] ←
    content.fields? Events.Broker.fieldNames | none
  let standard := Events.Broker.standard
  return {
    host := ← given standard.host Content.text? host
    port := ← given standard.port (Content.unsigned? 16) port
    clientId := ← given standard.clientId Content.text? clientId
    topicFront := ← given standard.topicFront Content.text? topicFront
    keepAliveSeconds := ← given standard.keepAliveSeconds (Content.unsigned? 64) keepAliveSeconds
    answerSeconds := ← given standard.answerSeconds (Content.unsigned? 64) answerSeconds
    capacity := ← given standard.capacity (Content.unsigned? 64) capacity }

/-- Decode the path of an event file, which has to be given. -/
def path? (content : Content) : Option String := do
  let [some path] ← content.fields? ["path"] | none
  path.text?

/-- Decode a delivery. Its collection is one level below the settings. -/
def delivery? (document : Document) (node : Node) : Option Delivery := do
  let (sink, content) ← Content.tagged? document (greatestDepth - 1) "sink" node
  match sink with
  | "ndjson" => (path? content).map .journal
  | "mqtt" => (broker? content).map .broker
  | _ => none

/-- The names of the settings. -/
def names : List String := ["chunk_size", "emit_failure", "exclude_culled", "staleness", "events"]

/-- Decode the settings of a document; one without content gives the standard ones. -/
def ofDocument? (document : Document) : Option Settings := do
  let fields ← match document.root with
    | none => some []
    | some root => document.fields? root
  if ! fields.all fun field => names.contains field.1 then none
  return {
    chunkSize := ← defaulted standard.chunkSize document.unsigned64? fields "chunk_size"
    emitFailure := ← defaulted standard.emitFailure
      (fun node => (document.name? node).bind Pruning.EmitFailure.parse) fields "emit_failure"
    excludeCulled := ← defaulted standard.excludeCulled document.truth? fields "exclude_culled"
    policy := ← defaulted standard.policy (policy? document) fields "staleness"
    delivery := ← defaulted standard.delivery (delivery? document) fields "events" }

/-- Read settings without validating them. A blank text gives the standard ones. -/
def read? (body : String) : Option Settings :=
  if Text.blank body then some standard else (Document.ofText? body).bind ofDocument?

/-- Read and validate settings. -/
def ofText (body : String) : Except SettingsFault Settings :=
  match read? body with
  | none => .error .malformed
  | some settings =>
      match settings.validate with
      | .error defect => .error (.invalid defect)
      | .ok () => .ok settings

/-- Settings that were read are valid. -/
theorem validate_of_ofText {body : String} {settings : Settings} (read : ofText body = .ok settings) :
    settings.validate = .ok () := by
  simp only [ofText] at read
  split at read
  · cases read
  · split at read
    · cases read
    · cases read
      assumption

end Settings

end HostPruning
