import HostPruning.Json.Binary64

/-!
# JSON values

Facts, hosts, events and reports are JSON. A value keeps the order of an object's
members, because records are written back with the key order they were read with.
The printer is authoritative for the exact text: no blanks in the compact form,
non-ASCII characters as they are, and short escapes where JSON has them.
-/

namespace HostPruning

/-- A number: an integer that fits 64 bits, signed or unsigned, or a binary64 value. -/
inductive Json.Number where
  | integer (value : Int)
  | real (value : Json.Binary64)
deriving DecidableEq

/-- A JSON value. -/
inductive Json where
  | null
  | bool (value : Bool)
  | number (value : Json.Number)
  | string (value : String)
  | array (items : List Json)
  | object (members : List (String × Json))

namespace Json

instance : Inhabited Json := ⟨null⟩

/-- The kinds of values, as error messages name them. -/
inductive Kind where
  | null | boolean | number | string | list | object
deriving DecidableEq

/-- The kind of a value. -/
def kind : Json → Kind
  | null => .null
  | bool _ => .boolean
  | number _ => .number
  | string _ => .string
  | array _ => .list
  | object _ => .object

/-- The name of a kind. -/
def Kind.name : Kind → String
  | .null => "null"
  | .boolean => "boolean"
  | .number => "number"
  | .string => "string"
  | .list => "list"
  | .object => "object"

/-- The integer of a value that is an integer. -/
def int? : Json → Option Int
  | number (.integer value) => some value
  | _ => none

/-- The text of a value that is a string. -/
def text? : Json → Option String
  | string value => some value
  | _ => none

/-- A JSON integer. -/
def ofInt (value : Int) : Json := number (.integer value)

/-- A JSON integer that is a count. -/
def ofNat (value : Nat) : Json := ofInt value

/-- The value, or null when there is none. -/
def ofOption (encode : α → Json) : Option α → Json
  | none => null
  | some value => encode value

/-- The members of an object, first one first. -/
abbrev Members := List (String × Json)

/-- The value of an object's member; the first one of that name counts. -/
def Members.get? (members : Members) (name : String) : Option Json := members.lookup name

/-- Set a member: a name already there keeps its place and gets the new value. -/
def Members.set (name : String) (value : Json) : Members → Members
  | [] => [(name, value)]
  | (present, old) :: rest =>
      if present = name then (present, value) :: rest else (present, old) :: Members.set name value rest

/-- Keep each name once, at its first place and with its last value. -/
def Members.dedup (members : Members) : Members :=
  members.foldl (fun kept member => Members.set member.1 member.2 kept) []

mutual

/-- Keep each name of every object once, at its first place and with its last value. -/
def dedup : Json → Json
  | array items => array (dedupItems items)
  | object members => object (Members.dedup (dedupMembers members))
  | value => value

/-- Apply `dedup` to every item. -/
def dedupItems : List Json → List Json
  | [] => []
  | item :: rest => item.dedup :: dedupItems rest

/-- Apply `dedup` to the value of every member. -/
def dedupMembers : List (String × Json) → List (String × Json)
  | [] => []
  | (name, value) :: rest => (name, value.dedup) :: dedupMembers rest

end

/-- The characters of a number. -/
def Number.chars : Number → List Char
  | integer value => (toString value).toList
  | real value => value.chars

/-- The lower-case hexadecimal digit of a number below 16. -/
def hexDigit (digit : Nat) : Char :=
  if digit < 10 then Char.ofNat (48 + digit) else Char.ofNat (87 + digit)

/-- A character inside a JSON string. -/
def escape (char : Char) : List Char :=
  if char = '"' then ['\\', '"']
  else if char = '\\' then ['\\', '\\']
  else if char.toNat < 0x20 then
    match char.toNat with
    | 8 => ['\\', 'b']
    | 9 => ['\\', 't']
    | 10 => ['\\', 'n']
    | 12 => ['\\', 'f']
    | 13 => ['\\', 'r']
    | code => ['\\', 'u', '0', '0', hexDigit (code / 16), hexDigit (code % 16)]
  else [char]

/-- A text as a JSON string. -/
def quote (text : String) : List Char := '"' :: text.toList.flatMap escape ++ ['"']

mutual

/-- The compact form of a value. -/
def chars : Json → List Char
  | null => "null".toList
  | bool true => "true".toList
  | bool false => "false".toList
  | number value => value.chars
  | string value => quote value
  | array items => '[' :: itemChars items ++ [']']
  | object members => '{' :: memberChars members ++ ['}']

/-- The items of a compact array, with commas between them. -/
def itemChars : List Json → List Char
  | [] => []
  | [only] => only.chars
  | item :: next :: rest => item.chars ++ ',' :: itemChars (next :: rest)

/-- The members of a compact object, with commas between them. -/
def memberChars : List (String × Json) → List Char
  | [] => []
  | [(name, value)] => quote name ++ ':' :: value.chars
  | (name, value) :: next :: rest => quote name ++ ':' :: (value.chars ++ ',' :: memberChars (next :: rest))

end

/-- The compact text of a value. -/
def render (value : Json) : String := String.ofList value.chars

/-- A line break followed by two blanks per level. -/
def newline (level : Nat) : List Char := '\n' :: List.replicate (2 * level) ' '

mutual

/-- The indented form of a value that starts at a given level. -/
def indented (level : Nat) : Json → List Char
  | array (item :: rest) =>
      '[' :: indentedItems (level + 1) (item :: rest) ++ newline level ++ [']']
  | object (member :: rest) =>
      '{' :: indentedMembers (level + 1) (member :: rest) ++ newline level ++ ['}']
  | array [] => ['[', ']']
  | object [] => ['{', '}']
  | null => "null".toList
  | bool true => "true".toList
  | bool false => "false".toList
  | number value => value.chars
  | string value => quote value

/-- The items of an indented array, each on its own line. -/
def indentedItems (level : Nat) : List Json → List Char
  | [] => []
  | [only] => newline level ++ only.indented level
  | item :: next :: rest => newline level ++ item.indented level ++ ',' :: indentedItems level (next :: rest)

/-- The members of an indented object, each on its own line. -/
def indentedMembers (level : Nat) : List (String × Json) → List Char
  | [] => []
  | [(name, value)] => newline level ++ quote name ++ ':' :: ' ' :: value.indented level
  | (name, value) :: next :: rest =>
      newline level ++ quote name ++ ':' :: ' ' :: (value.indented level ++ ',' :: indentedMembers level (next :: rest))

end

/-- The text of a value with one member or item a line, two blanks a level. -/
def renderIndented (value : Json) : String := String.ofList (value.indented 0)

end Json

end HostPruning
