/-!
# Integers of fixed width

How many numbers some bits hold, and how far a signed number of some bits reaches from zero.
-/

namespace HostPruning.Width

/-- How many numbers some bits hold. -/
def count (bits : Nat) : Nat := Nat.pow 2 bits

/-- The distance from zero to the least signed number of some bits. -/
def half (bits : Nat) : Nat := Nat.pow 2 (bits - 1)

/-- Whether a signed number of some bits can be a given one. -/
def holdsSigned (bits : Nat) (value : Int) : Bool := -(half bits : Int) ≤ value && value < half bits

@[simp] theorem count_64 : count 64 = 18446744073709551616 := rfl

@[simp] theorem count_128 : count 128 = 340282366920938463463374607431768211456 := rfl

@[simp] theorem half_64 : half 64 = 9223372036854775808 := rfl

end HostPruning.Width
