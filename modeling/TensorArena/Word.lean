/-!
# Machine words and alignment

Sizes and offsets are natural numbers that must fit in a 64-bit word. This module holds the bound,
the sums and products that notice when it is passed, and rounding to an alignment by clearing low
bits, which for a power of two gives a multiple of it. Powers and sums of natural numbers have names
here.
-/

namespace TensorArena

def pow2 (n : Nat) : Nat :=
  Nat.pow 2 n

def pow10 (n : Nat) : Nat :=
  Nat.pow 10 n

def total (ns : List Nat) : Nat :=
  ns.foldr (fun n sum => n + sum) 0

namespace Word

def max : Nat := pow2 64 - 1

/-- The largest byte count that an address difference can express. -/
def maxSigned : Nat := pow2 63 - 1

def max32 : Nat := pow2 32 - 1

/-- The sum, if it is a word. -/
def add? (a b : Nat) : Option Nat :=
  if a + b ≤ max then some (a + b) else none

/-- The product, if it is a word. -/
def mul? (a b : Nat) : Option Nat :=
  if a * b ≤ max then some (a * b) else none

/-- The sum, cut off at the largest word. -/
def addSat (a b : Nat) : Nat :=
  min (a + b) max

end Word

/-- A number is a power of two when raising two to its binary logarithm gives it back; zero is
none. -/
def IsPowerOfTwo (n : Nat) : Prop :=
  pow2 n.log2 = n

instance (n : Nat) : Decidable (IsPowerOfTwo n) :=
  inferInstanceAs (Decidable (_ = _))

/-- Clears the bits of `value` that `align - 1` has. For a power of two this is the greatest
multiple of `align` that is not above `value`. -/
def alignDown (value align : Nat) : Nat :=
  value - (value &&& (align - 1))

/-- Passes over `align - 1` numbers before the bits are cleared. For a power of two this is the
least multiple of `align` that is not below `value`. In words the sum must not overflow: values up to
`Word.maxSigned` and alignments up to 2 ^ 62 leave room for it. -/
def alignUp (value align : Nat) : Nat :=
  alignDown (value + align - 1) align

/-- A power of two has one bit, so the bits below it are the remainder. -/
theorem alignDown_of_isPowerOfTwo {align : Nat} (h : IsPowerOfTwo align) (value : Nat) :
    alignDown value align = value / align * align := by
  have rest : value &&& (align - 1) = value % align := by
    rw [← h]
    exact Nat.and_two_pow_sub_one_eq_mod value align.log2
  rw [alignDown, rest, Nat.div_mul_self_eq_mod_sub_self]

/-- To round up is to divide with the quotient rounded up. -/
theorem alignUp_of_isPowerOfTwo {align : Nat} (h : IsPowerOfTwo align) (value : Nat) :
    alignUp value align = (value + align - 1) / align * align :=
  alignDown_of_isPowerOfTwo h _

theorem IsPowerOfTwo.pos {n : Nat} (h : IsPowerOfTwo n) : 0 < n := by
  rw [← h]
  exact Nat.two_pow_pos n.log2

theorem dvd_alignDown {align : Nat} (h : IsPowerOfTwo align) (value : Nat) :
    align ∣ alignDown value align := by
  rw [alignDown_of_isPowerOfTwo h]
  exact Nat.dvd_mul_left ..

theorem dvd_alignUp {align : Nat} (h : IsPowerOfTwo align) (value : Nat) :
    align ∣ alignUp value align :=
  dvd_alignDown h _

theorem alignDown_le (value align : Nat) : alignDown value align ≤ value :=
  Nat.sub_le ..

/-- Rounding down loses less than one alignment. -/
theorem lt_alignDown_add {align : Nat} (h : IsPowerOfTwo align) (value : Nat) :
    value < alignDown value align + align := by
  rw [alignDown_of_isPowerOfTwo h, Nat.mul_comm]
  have := Nat.div_add_mod value align
  have := Nat.mod_lt value h.pos
  omega

theorem le_alignUp {align : Nat} (h : IsPowerOfTwo align) (value : Nat) :
    value ≤ alignUp value align := by
  have : value + align - 1 < alignUp value align + align := lt_alignDown_add h _
  have := h.pos
  omega

end TensorArena
