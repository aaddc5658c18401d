import HostPruning.Ordered
import HostPruning.Width

/-!
# Host identifiers

A host is named by a 128-bit number. Its text has 26 digits of base 32, most
significant first, over an alphabet without `I`, `L`, `O` and `U`; so texts of
this form compare as the numbers do. Reading accepts lower case and keeps the
low 128 bits of the 130 that 26 digits can hold.
-/

namespace HostPruning

/-- The name of a host: a number of 128 bits. -/
structure HostId where
  value : Nat
  bounded : value < Width.count 128
deriving DecidableEq

namespace HostId

instance : LT HostId := ⟨fun left right => left.value < right.value⟩

instance : DecidableLT HostId := fun left right => inferInstanceAs (Decidable (left.value < right.value))

instance : Inhabited HostId := ⟨⟨0, by decide⟩⟩

/-- Two identifiers with the same number are the same. -/
@[ext]
theorem ext {left right : HostId} (same : left.value = right.value) : left = right := by
  cases left
  cases right
  cases same
  rfl

theorem lt_def {left right : HostId} : left < right ↔ left.value < right.value := Iff.rfl

instance : AscendingKey HostId where
  trans := Nat.lt_trans
  irrefl id := Nat.lt_irrefl id.value
  total left right := by
    rcases Nat.lt_trichotomy left.value right.value with less | equal | greater
    · exact Or.inl less
    · exact Or.inr (Or.inl (ext equal))
    · exact Or.inr (Or.inr greater)

/-- The number of digits in an identifier's text. -/
def width : Nat := 26

/-- The character of a base-32 digit. -/
def digitChar (digit : Nat) : Char :=
  if digit < 10 then Char.ofNat (48 + digit)
  else if digit < 18 then Char.ofNat (55 + digit)
  else if digit < 20 then Char.ofNat (56 + digit)
  else if digit < 22 then Char.ofNat (57 + digit)
  else if digit < 27 then Char.ofNat (58 + digit)
  else Char.ofNat (59 + digit)

/-- The digit an upper-case character stands for. -/
def upperDigit (char : Char) : Option Nat :=
  let code := char.toNat
  if 48 ≤ code ∧ code ≤ 57 then some (code - 48)
  else if 65 ≤ code ∧ code ≤ 72 then some (code - 55)
  else if 74 ≤ code ∧ code ≤ 75 then some (code - 56)
  else if 77 ≤ code ∧ code ≤ 78 then some (code - 57)
  else if 80 ≤ code ∧ code ≤ 84 then some (code - 58)
  else if 86 ≤ code ∧ code ≤ 90 then some (code - 59)
  else none

/-- The digit a character stands for, in either case. -/
def charDigit (char : Char) : Option Nat := upperDigit char.toUpper

/-- The lowest `count` base-32 digits of a number, most significant first. -/
def digits : Nat → Nat → List Nat
  | 0, _ => []
  | count + 1, number => digits count (number / 32) ++ [number % 32]

/-- The number that base-32 digits spell, most significant first. -/
def ofDigits (spelled : List Nat) : Nat := spelled.foldl (fun number digit => number * 32 + digit) 0

/-- The 26 characters of an identifier. -/
def chars (id : HostId) : List Char := (digits width id.value).map digitChar

/-- The text of an identifier, in upper case. -/
def text (id : HostId) : String := String.ofList id.chars

instance : ToString HostId := ⟨text⟩

/-- Why a text is not an identifier. -/
inductive Defect where
  /-- It does not have 26 bytes. -/
  | length
  /-- One of its characters is not in the alphabet. -/
  | character
deriving DecidableEq

/-- The wording of a defect. -/
def Defect.message : Defect → String
  | .length => "invalid length"
  | .character => "invalid character"

/-- Keep the low 128 bits of a number. -/
def ofNat (number : Nat) : HostId := ⟨number % Width.count 128, Nat.mod_lt _ (by decide)⟩

/-- Read an identifier. The length counts bytes and is checked first. -/
def parse (raw : String) : Except Defect HostId :=
  if raw.utf8ByteSize ≠ width then .error .length
  else match raw.toList.mapM charDigit with
    | none => .error .character
    | some spelled => .ok (ofNat (ofDigits spelled))

/-- Read an identifier, without the reason of a failure. -/
def parse? (raw : String) : Option HostId := (parse raw).toOption

end HostId

end HostPruning
