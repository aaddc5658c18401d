import HostPruning.Json.Basic
import HostPruning.Width

/-!
# Records in JSON

A record is written as an object with named fields, or as an array that lists the
fields in their declared order. Unknown names are ignored; a known name given twice
is refused, and so is an array with more items than there are fields.
-/

namespace HostPruning.Json

/-- The values given for a record's fields, in the order of their names; `none` for a
field that is not given. -/
def fields? (names : List String) : Json → Option (List (Option Json))
  | object members =>
      if names.all fun name => (members.filter fun member => member.1 = name).length ≤ 1 then
        some (names.map (Members.get? members))
      else none
  | array items =>
      if items.length ≤ names.length then
        some (items.map some ++ List.replicate (names.length - items.length) none)
      else none
  | _ => none

/-- The field at a place of a record's field list. -/
def field (fields : List (Option Json)) (place : Nat) : Option Json := (fields[place]?).join

/-- Decode a field that has to be given. -/
def required (decode : Json → Option α) (fields : List (Option Json)) (place : Nat) : Option α :=
  (field fields place).bind decode

/-- Decode a field that has a value of its own when it is not given. -/
def defaulted (fallback : α) (decode : Json → Option α) (fields : List (Option Json))
    (place : Nat) : Option α :=
  match field fields place with
  | none => some fallback
  | some value => decode value

/-- Decode a field that may be absent or null. -/
def optional (decode : Json → Option α) (fields : List (Option Json)) (place : Nat) :
    Option (Option α) :=
  match field fields place with
  | none => some none
  | some null => some none
  | some value => (decode value).map some

/-- A truth value. -/
def bool? : Json → Option Bool
  | bool value => some value
  | _ => none

/-- An integer within bounds. -/
def intWithin? (least greatest : Int) (value : Json) : Option Int :=
  value.int?.bind fun number => if least ≤ number ∧ number ≤ greatest then some number else none

/-- A signed 64-bit integer. -/
def signed64? : Json → Option Int := intWithin? (-(Width.half 64 : Int)) (Width.half 64 - 1)

/-- An unsigned integer of some number of bits. -/
def unsigned? (bits : Nat) (value : Json) : Option Nat :=
  (intWithin? 0 (Width.count bits - 1) value).map Int.toNat

/-- One of a set of names, written as a string or as an object whose only member has that
name and the value null. -/
def choice? (parse : String → Option α) : Json → Option α
  | string name => parse name
  | object [(name, null)] => parse name
  | _ => none

/-- The members of an object. -/
def members? : Json → Option Members
  | object members => some members
  | _ => none

/-- The items of an array. -/
def items? : Json → Option (List Json)
  | array items => some items
  | _ => none

end HostPruning.Json
