import HostPruning.Query.Condition
import HostPruning.Facts.Filter

/-!
# Filters as conditions

`compile` turns a fact filter into a condition on stored facts with the values for its
holes. Keys and values never become part of the wording: a key has to be a plain
identifier and only enters a path, which is a value like the others. The condition's
shape depends on the filter's shape alone.
-/

namespace HostPruning.Query

/-- A path for a key, which has to be plain. -/
def pathOf (key : String) : Except DatabaseFault Parameter :=
  if Condition.plainKey key then .ok (.text (Condition.path key)) else .error (.keyNotPlain key)

/-- The condition that a stored fact contains a value. -/
def containsCondition : FactValue → Condition
  | .single _ => .all [.isText, .equalsText]
  | .many texts => .all [.isList, .countsTexts texts.members.length]

/-- The values for the holes of such a condition. -/
def containsParameters (path : Parameter) : FactValue → List Parameter
  | .single text => [path, path, .text text]
  | .many texts =>
      [path, path] ++ texts.members.map .text ++ [.integer texts.members.length]

/-- Some of several conditions; of none it is false. -/
def anyCondition (conditions : List Condition) : Condition :=
  if conditions.isEmpty then .constant false else .any conditions

/-- All of several conditions; of none it is true. -/
def allCondition (conditions : List Condition) : Condition :=
  if conditions.isEmpty then .constant true else .all conditions

mutual

/-- The condition of a filter. -/
def compile : FactFilter → Except DatabaseFault Clause
  | .contains key value =>
      match pathOf key with
      | .error fault => .error fault
      | .ok path => .ok ⟨containsCondition value, containsParameters path value⟩
  | .conflicts key value =>
      match pathOf key with
      | .error fault => .error fault
      | .ok path =>
          .ok ⟨.all [.isPresent, .not (containsCondition value)], path :: containsParameters path value⟩
  | .anyOf parts =>
      match compileParts parts with
      | .error fault => .error fault
      | .ok (conditions, parameters) => .ok ⟨anyCondition conditions, parameters⟩
  | .allOf parts =>
      match compileParts parts with
      | .error fault => .error fault
      | .ok (conditions, parameters) => .ok ⟨allCondition conditions, parameters⟩
  | .noneOf parts =>
      match compileParts parts with
      | .error fault => .error fault
      | .ok (conditions, parameters) => .ok ⟨.all [.not (anyCondition conditions)], parameters⟩

/-- The conditions of several filters and the values for all their holes. The first key that
is not plain counts. -/
def compileParts : List FactFilter → Except DatabaseFault (List Condition × List Parameter)
  | [] => .ok ([], [])
  | part :: rest =>
      match compile part with
      | .error fault => .error fault
      | .ok clause =>
          match compileParts rest with
          | .error fault => .error fault
          | .ok (conditions, parameters) =>
              .ok (clause.condition :: conditions, clause.parameters ++ parameters)

end

/-- Encode a clause: its wording and its values. -/
def Clause.toJson (clause : Clause) : Json :=
  .object
    [("clause", .string clause.condition.text),
     ("params", .array (clause.parameters.map Parameter.toJson))]

end HostPruning.Query
