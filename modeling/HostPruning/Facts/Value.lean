import HostPruning.Failure
import HostPruning.Ordered
import HostPruning.Json.Record

/-!
# Fact values

A fact is a text or a set of texts. `FactValue.containedIn` is the comparison that
matching rests on: it looks at raw JSON as another host stores it, which need not be
well formed.
-/

namespace HostPruning

/-- The value of a fact. -/
inductive FactValue where
  | single (text : String)
  | many (texts : TextSet)
deriving DecidableEq

namespace FactValue

/-- Whether a value is `""` or `[]`. -/
def isEmpty : FactValue → Bool
  | single text => text.isEmpty
  | many texts => texts.members.isEmpty

/-- Whether a stored list holds a text. -/
def listed (items : List Json) (text : String) : Bool :=
  items.any fun item => item.text? == some text

/-- Whether a stored value contains this one: texts are equal, a list holds every text. -/
def containedIn : FactValue → Json → Bool
  | single expected, .string actual => expected == actual
  | many expected, .array items => expected.members.all (listed items)
  | _, _ => false

/-- The value as JSON. -/
def toJson : FactValue → Json
  | single text => .string text
  | many texts => .array (texts.members.map .string)

/-- Decode a value: a text, or a list of texts. -/
def ofJson : Json → Option FactValue
  | .string text => some (single text)
  | .array items => (items.mapM Json.text?).map fun texts => many (TextSet.ofList texts)
  | _ => none

end FactValue

end HostPruning
