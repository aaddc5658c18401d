import HostPruning.Facts.Identity

/-!
# Fact filters

A filter is a predicate on stored facts that does not depend on where they are stored.
`FactFilter.accepts` is its meaning. The filter of a host asks that at least one of the
host's identity facts is contained in the candidate's value and that no value the
candidate has under one of these keys contradicts the host's.
-/

namespace HostPruning

/-- A predicate on stored facts. -/
inductive FactFilter where
  /-- The key is present and its value contains the given one. -/
  | contains (key : String) (value : FactValue)
  /-- The key is present and its value does not contain the given one. -/
  | conflicts (key : String) (value : FactValue)
  | anyOf (parts : List FactFilter)
  | noneOf (parts : List FactFilter)
  | allOf (parts : List FactFilter)

namespace FactFilter

mutual

/-- Whether stored facts satisfy a filter. -/
def accepts (facts : Json.Members) : FactFilter → Bool
  | contains key value =>
      match facts.get? key with
      | some stored => value.containedIn stored
      | none => false
  | conflicts key value =>
      match facts.get? key with
      | some stored => ! value.containedIn stored
      | none => false
  | anyOf parts => acceptsAny facts parts
  | noneOf parts => ! acceptsAny facts parts
  | allOf parts => acceptsAll facts parts

/-- Whether stored facts satisfy some filter of a list. -/
def acceptsAny (facts : Json.Members) : List FactFilter → Bool
  | [] => false
  | part :: rest => part.accepts facts || acceptsAny facts rest

/-- Whether stored facts satisfy every filter of a list. -/
def acceptsAll (facts : Json.Members) : List FactFilter → Bool
  | [] => true
  | part :: rest => part.accepts facts && acceptsAll facts rest

end

/-- Satisfying some filter of a list. -/
theorem acceptsAny_eq (facts : Json.Members) (parts : List FactFilter) :
    acceptsAny facts parts = parts.any (accepts facts) := by
  induction parts with
  | nil => simp [acceptsAny]
  | cons part rest inductionHypothesis => simp [acceptsAny, inductionHypothesis]

/-- Satisfying every filter of a list. -/
theorem acceptsAll_eq (facts : Json.Members) (parts : List FactFilter) :
    acceptsAll facts parts = parts.all (accepts facts) := by
  induction parts with
  | nil => simp [acceptsAll]
  | cons part rest inductionHypothesis => simp [acceptsAll, inductionHypothesis]

/-- The filter of a table of facts: some fact is contained and none conflicts. An empty
table has no filter. -/
def ofFacts (facts : FactTable) : Option FactFilter :=
  if facts.isEmpty then none
  else some <| allOf
    [anyOf (facts.entries.map fun entry => contains entry.1 entry.2),
     noneOf (facts.entries.map fun entry => conflicts entry.1 entry.2)]

/-- The filter of a host's stored facts, with the category it rests on; none for a host
without known facts. -/
def ofHostFacts (raw : Json.Members) : Except FactDefect (Option (Facts.Basis × FactFilter)) :=
  (Facts.parse raw).map fun facts =>
    (Facts.identity facts).bind fun (basis, selected) =>
      (ofFacts selected).map fun filter => (basis, filter)

mutual

/-- The filter as JSON. -/
def toJson : FactFilter → Json
  | contains key value => .object [("contains", .object [("key", .string key), ("value", value.toJson)])]
  | conflicts key value => .object [("conflicts", .object [("key", .string key), ("value", value.toJson)])]
  | anyOf parts => .object [("any", .array (partsToJson parts))]
  | noneOf parts => .object [("none", .array (partsToJson parts))]
  | allOf parts => .object [("all", .array (partsToJson parts))]

/-- Filters as JSON. -/
def partsToJson : List FactFilter → List Json
  | [] => []
  | part :: rest => part.toJson :: partsToJson rest

end

end FactFilter

end HostPruning
