import HostPruning.Json.Reader
import HostPruning.Facts.Value
import HostPruning.Text.Blank

/-!
# Conditions on stored facts

A database row is chosen by a condition over the text of its facts. A `Condition` is
such a condition with a hole for every value; `Condition.text` is its wording with a
question mark per hole, and `Condition.truth` its meaning once the holes are filled from
left to right. Truth has three values, because a fact that is not there has no type and
compares with nothing: `none` is the unknown one.
-/

namespace HostPruning.Query

/-- Three-valued conjunction. -/
def both : Option Bool → Option Bool → Option Bool
  | some false, _ => some false
  | _, some false => some false
  | some true, some true => some true
  | _, _ => none

/-- Three-valued disjunction. -/
def either : Option Bool → Option Bool → Option Bool
  | some true, _ => some true
  | _, some true => some true
  | some false, some false => some false
  | _, _ => none

/-- Three-valued negation. -/
def negate : Option Bool → Option Bool
  | some value => some (! value)
  | none => none

/-- A value that fills a hole. -/
inductive Parameter where
  | text (value : String)
  | integer (value : Int)
deriving DecidableEq

/-- Encode a parameter. -/
def Parameter.toJson : Parameter → Json
  | text value => .string value
  | integer value => .ofInt value

/-- A condition on the facts of a row, with holes for values. -/
inductive Condition where
  /-- The constants 1 and 0. -/
  | constant (value : Bool)
  /-- The fact at a path is a text. Hole: the path. -/
  | isText
  /-- The fact at a path is a list. Hole: the path. -/
  | isList
  /-- There is a fact at a path. Hole: the path. -/
  | isPresent
  /-- The fact at a path equals a text. Holes: the path, the text. -/
  | equalsText
  /-- The list at a path has a number of distinct texts among some given ones. Holes: the
  path, the given texts, the number. -/
  | countsTexts (given : Nat)
  | not (part : Condition)
  | all (parts : List Condition)
  | any (parts : List Condition)

namespace Condition

/-- Question marks for the texts of a list, with commas between them. -/
def marks (count : Nat) : String := Text.join ", " (List.replicate count "?")

mutual

/-- The wording of a condition. -/
def text : Condition → String
  | constant true => "1"
  | constant false => "0"
  | isText => "json_type(canonical_facts, ?) = 'text'"
  | isList => "json_type(canonical_facts, ?) = 'array'"
  | isPresent => "json_type(canonical_facts, ?) IS NOT NULL"
  | equalsText => "json_extract(canonical_facts, ?) = ?"
  | countsTexts given =>
      "(SELECT COUNT(DISTINCT value) FROM json_each(canonical_facts, ?) WHERE type = 'text' AND "
        ++ (if given = 0 then "0" else "value IN (" ++ marks given ++ ")") ++ ") = ?"
  | not part => "NOT " ++ part.text
  | all parts => "(" ++ joined " AND " parts ++ ")"
  | any parts => "(" ++ joined " OR " parts ++ ")"

/-- The wordings of conditions with a connective between them. -/
def joined (connective : String) : List Condition → String
  | [] => ""
  | [only] => only.text
  | part :: next :: rest => part.text ++ connective ++ joined connective (next :: rest)

end

mutual

/-- The number of holes. -/
def holes : Condition → Nat
  | constant _ => 0
  | isText | isList | isPresent => 1
  | equalsText => 2
  | countsTexts given => given + 2
  | not part => part.holes
  | all parts => holesOf parts
  | any parts => holesOf parts

/-- The number of holes of several conditions. -/
def holesOf : List Condition → Nat
  | [] => 0
  | part :: rest => part.holes + holesOf rest

end

/-- The depth of what is asked of each item of a list to count the texts among some given ones. A text that
stands alone is compared through a sign, and without any there is nothing to compare. -/
def countDepth : (given : Nat) → Nat
  | 0 => 2
  | 1 => 4
  | _ => 3

mutual

/-- The depth of the tree that a condition is read as: comparisons, calls and connectives one above the
other. A chain of connectives grows to the left. -/
def depth : Condition → Nat
  | constant _ => 1
  | isText | isList | isPresent | equalsText => 3
  | countsTexts given => countDepth given + 2
  | not part => part.depth + 1
  | all parts => depthOf parts
  | any parts => depthOf parts

/-- The depth of a chain of conditions. -/
def depthOf : List Condition → Nat
  | [] => 0
  | part :: rest => depthBehind part.depth rest

/-- The depth of a chain of conditions behind a part that is already read. -/
def depthBehind (front : Nat) : List Condition → Nat
  | [] => front
  | part :: rest => depthBehind (max front part.depth + 1) rest

end

mutual

/-- The depth of the deepest count in a condition. Names in a count are looked up below the whole condition. -/
def innerDepth : Condition → Nat
  | constant _ => 0
  | isText | isList | isPresent | equalsText => 0
  | countsTexts given => countDepth given
  | not part => part.innerDepth
  | all parts => innerDepthOf parts
  | any parts => innerDepthOf parts

/-- The depth of the deepest count in several conditions. -/
def innerDepthOf : List Condition → Nat
  | [] => 0
  | part :: rest => max part.innerDepth (innerDepthOf rest)

end

/-- The characters that may stand in a key of a path. -/
def plainChar (char : Char) : Bool := char.isAlphanum || char = '_'

/-- Whether a key can stand in a path as it is. -/
def plainKey (key : String) : Bool := ! key.isEmpty && key.toList.all plainChar

/-- The path of a key: the member of that name of the stored object. -/
def path (key : String) : String := "$.\"" ++ key ++ "\""

/-- The key a path leads to. -/
def keyOf? (path : String) : Option String :=
  match path.toList with
  | '$' :: '.' :: '"' :: rest =>
      match rest.reverse with
      | '"' :: key => some (String.ofList key.reverse)
      | _ => none
  | _ => none

/-- The fact at a path: a member of the stored object, the first one of that name. -/
def factAt (stored : Json) : Parameter → Option Json
  | .text path =>
      match keyOf? path, stored with
      | some key, .object members => Json.Members.get? members key
      | _, _ => none
  | .integer _ => none

/-- What `json_each` lists at a path: the items of a list, the values of an object, any other
fact itself, and nothing where there is no fact. -/
def listedAt (stored : Json) (path : Parameter) : List Json :=
  match factAt stored path with
  | none => []
  | some (.array items) => items
  | some (.object members) => members.map Prod.snd
  | some other => [other]

/-- The number of distinct texts of a list that are among the given ones. -/
def distinctTexts (listed : List Json) (given : List Parameter) : Nat :=
  ((listed.filterMap Json.text?).filter fun text => given.contains (.text text)).eraseDups.length

/-- Whether an extracted fact equals a parameter. A fact that is null compares with nothing. A list or an
object is extracted as its text, which may equal a parameter too; the comparison only counts for facts
that are texts (`isText`), so this is left out here. -/
def equals (extracted : Option Json) (expected : Parameter) : Option Bool :=
  match extracted, expected with
  | none, _ => none
  | some .null, _ => none
  | some (.string actual), .text wanted => some (actual == wanted)
  | some _, _ => some false

mutual

/-- The truth of a condition for stored facts, and the parameters it leaves unused. -/
def truth (stored : Json) : Condition → List Parameter → Option Bool × List Parameter
  | constant value, parameters => (some value, parameters)
  | isText, path :: rest => ((factAt stored path).map fun fact => fact.kind = .string, rest)
  | isList, path :: rest => ((factAt stored path).map fun fact => fact.kind = .list, rest)
  | isPresent, path :: rest => (some (factAt stored path).isSome, rest)
  | equalsText, path :: expected :: rest => (equals (factAt stored path) expected, rest)
  | countsTexts given, path :: rest =>
      match rest.drop given with
      | count :: after =>
          (some (.integer (distinctTexts (listedAt stored path) (rest.take given)) = count), after)
      | [] => (none, [])
  | not part, parameters =>
      let (value, rest) := part.truth stored parameters
      (negate value, rest)
  | all parts, parameters => truthAll stored parts parameters
  | any parts, parameters => truthAny stored parts parameters
  | _, [] => (none, [])
  | equalsText, [_] => (none, [])

/-- The truth of a conjunction, from left to right. -/
def truthAll (stored : Json) : List Condition → List Parameter → Option Bool × List Parameter
  | [], parameters => (some true, parameters)
  | part :: rest, parameters =>
      let (value, parameters) := part.truth stored parameters
      let (others, parameters) := truthAll stored rest parameters
      (both value others, parameters)

/-- The truth of a disjunction, from left to right. -/
def truthAny (stored : Json) : List Condition → List Parameter → Option Bool × List Parameter
  | [], parameters => (some false, parameters)
  | part :: rest, parameters =>
      let (value, parameters) := part.truth stored parameters
      let (others, parameters) := truthAny stored rest parameters
      (either value others, parameters)

end

end Condition

/-- A condition with the values that fill its holes, first hole first. -/
structure Clause where
  condition : Condition
  parameters : List Parameter

/-- Whether a row with these facts is chosen: the condition has to be true, not unknown. -/
def Clause.selects (clause : Clause) (stored : Json) : Bool :=
  (clause.condition.truth stored clause.parameters).1 = some true

end HostPruning.Query
