import HostPruning.Facts.Value

/-!
# Identity facts

Eight facts take part in matching. The elevated ones are strong enough to match on
alone; the regular ones count only for a host without any elevated fact. Among the
elevated facts a non-empty `provider_id` suppresses the other two, and a non-empty
`insights_id` suppresses `subscription_manager_id`. An empty value is present, unlike a
missing key, but suppresses nothing.
-/

namespace HostPruning

/-- Facts by key, in ascending order of the keys. -/
abbrev FactTable := Table String FactValue

namespace Facts

/-- The facts strong enough to match on alone, highest priority first. -/
def elevatedKeys : List String := ["provider_id", "insights_id", "subscription_manager_id"]

/-- The facts that count when no elevated one is present. -/
def regularKeys : List String := ["fqdn", "satellite_id", "bios_uuid", "ip_addresses", "mac_addresses"]

/-- The facts whose values are lists. -/
def multiValuedKeys : List String := ["ip_addresses", "mac_addresses"]

/-- The known facts, in the order they are checked. -/
def knownKeys : List String := elevatedKeys ++ regularKeys

/-- The text of a list entry of a fact. -/
def parseEntry (key : String) : Json → Except FactDefect String
  | .string text => .ok text
  | other => .error (.entryNotText key other.kind)

/-- The value of a single-valued fact. -/
def parseSingle (key : String) : Json → Except FactDefect FactValue
  | .string text => .ok (.single text)
  | other => .error (.notText key other.kind)

/-- The value of a multi-valued fact. -/
def parseMany (key : String) : Json → Except FactDefect FactValue
  | .array items => (items.mapM (parseEntry key)).map fun texts => .many (TextSet.ofList texts)
  | other => .error (.notList key other.kind)

/-- The value of a known fact. -/
def parseKnown (key : String) (value : Json) : Except FactDefect FactValue :=
  if key ∈ multiValuedKeys then parseMany key value else parseSingle key value

/-- Read some known facts out of a stored mapping into a table. -/
def parseKeys (raw : Json.Members) : List String → FactTable → Except FactDefect FactTable
  | [], table => .ok table
  | key :: rest, table =>
      match raw.get? key with
      | none => parseKeys raw rest table
      | some value =>
          match parseKnown key value with
          | .error defect => .error defect
          | .ok parsed => parseKeys raw rest (table.insert key parsed)

/-- Read the known facts out of a stored mapping; other keys are ignored. -/
def parse (raw : Json.Members) : Except FactDefect FactTable := parseKeys raw knownKeys ∅

/-- The facts under some keys. -/
def project (keys : List String) (facts : FactTable) : FactTable := facts.filter fun key _ => key ∈ keys

/-- The facts not under some keys. -/
def without (keys : List String) (facts : FactTable) : FactTable := facts.filter fun key _ => key ∉ keys

/-- The elevated facts. -/
def elevated (facts : FactTable) : FactTable := project elevatedKeys facts

/-- The regular facts. -/
def regular (facts : FactTable) : FactTable := project regularKeys facts

/-- Whether a key is present with a value that is not empty. -/
def filled (facts : FactTable) (key : String) : Bool :=
  match facts.get? key with
  | some value => ! value.isEmpty
  | none => false

/-- Drop the elevated facts that one of higher priority suppresses. -/
def narrow (facts : FactTable) : FactTable :=
  if filled facts "provider_id" then without ["insights_id", "subscription_manager_id"] facts
  else if filled facts "insights_id" then without ["subscription_manager_id"] facts
  else facts

/-- The category of facts a host is matched on. -/
inductive Basis where
  | elevated
  | regular
deriving DecidableEq

/-- The name of a category. -/
def Basis.name : Basis → String
  | .elevated => "elevated"
  | .regular => "regular"

/-- The facts a host is matched on: narrowed elevated ones when there are any, else regular
ones, else none. -/
def identity (facts : FactTable) : Option (Basis × FactTable) :=
  if ! (elevated facts).isEmpty then some (.elevated, narrow (elevated facts))
  else if ! (regular facts).isEmpty then some (.regular, regular facts)
  else none

/-- The facts as JSON, in ascending order of the keys. -/
def toJson (facts : FactTable) : Json :=
  .object (facts.entries.map fun entry => (entry.1, entry.2.toJson))

end Facts

end HostPruning
