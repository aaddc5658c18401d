import HostPruning.Facts.Filter

/-!
# Reading fact filters

A filter is written as an object with one member: its name says which filter it is, and its
value holds the compared key and value or the list of parts. The name is looked at before
the value.
-/

namespace HostPruning.FactFilter

/-- Why a JSON value is no filter. -/
inductive TextDefect where
  /-- The value is not an object with exactly one member. -/
  | notSingle
  /-- The name of the member is no filter's. -/
  | unknownName
  /-- The parts of a filter are not a list. -/
  | partsNotList
  | keyMissing
  | keyNotText
  | valueMissing
  /-- The value is neither a text nor a list of texts. -/
  | valueNotFact
deriving DecidableEq

/-- The members of an object; other values have none. -/
def membersOf : Json → Json.Members
  | .object members => members
  | _ => []

/-- The compared key and value of a filter. -/
def comparison (body : Json) : Except TextDefect (String × FactValue) :=
  match (membersOf body).get? "key" with
  | none => .error .keyMissing
  | some (.string key) =>
      match (membersOf body).get? "value" with
      | none => .error .valueMissing
      | some value =>
          match FactValue.ofJson value with
          | none => .error .valueNotFact
          | some value => .ok (key, value)
  | some _ => .error .keyNotText

/-- Whether a name is that of a filter with parts. -/
def namesParts (name : String) : Bool := name = "any" || name = "none" || name = "all"

/-- The filter of a name with parts. -/
def ofParts (name : String) (parts : List FactFilter) : FactFilter :=
  if name = "any" then anyOf parts else if name = "none" then noneOf parts else allOf parts

/-- The filter of a name that compares. -/
def ofComparison (name : String) (body : Json) : Except TextDefect FactFilter :=
  if name = "contains" then (comparison body).map fun compared => contains compared.1 compared.2
  else if name = "conflicts" then (comparison body).map fun compared => conflicts compared.1 compared.2
  else if namesParts name then .error .partsNotList
  else .error .unknownName

mutual

/-- Read a filter. -/
def ofJson : Json → Except TextDefect FactFilter
  | .object [(name, .array items)] =>
      if namesParts name then (listOfJson items).map (ofParts name)
      else ofComparison name (.array items)
  | .object [(name, body)] => ofComparison name body
  | _ => .error .notSingle

/-- Read the parts of a filter. -/
def listOfJson : List Json → Except TextDefect (List FactFilter)
  | [] => .ok []
  | item :: rest =>
      match ofJson item with
      | .error defect => .error defect
      | .ok part => (listOfJson rest).map (part :: ·)

end

end HostPruning.FactFilter
