import TensorArena.Bytes
import TensorArena.Number.Text

/-!
# Element types

What one element of a tensor is: its size, its label, the names it may be asked for by, and how a
machine word of that size stands for an integer.
-/

namespace TensorArena

/-- The numeric types a tensor can hold. -/
inductive DType where
  | f32
  | i64
  | i32
  | i16
  | i8
  | u8
  deriving DecidableEq, Repr

namespace DType

def size : DType → Nat
  | i64 => 8
  | f32 | i32 => 4
  | i16 => 2
  | i8 | u8 => 1

theorem size_pos (d : DType) : 0 < d.size := by
  cases d with
  | _ => decide

/-- The short name, in lower case. -/
def label : DType → String
  | f32 => "f32"
  | i64 => "i64"
  | i32 => "i32"
  | i16 => "i16"
  | i8 => "i8"
  | u8 => "u8"

/-- The type with exactly this label. -/
def ofLabel? : String → Option DType
  | "f32" => some f32
  | "i64" => some i64
  | "i32" => some i32
  | "i16" => some i16
  | "i8" => some i8
  | "u8" => some u8
  | _ => none

/-- The type asked for by a short or a long name in any letter case. Only letters of ASCII occur
in the names, and no other letter has one of these as its lower case, so ASCII folding is exact. -/
def ofName? (name : String) : Option DType :=
  match name.map Char.toLower with
  | "f32" | "float32" | "float" => some f32
  | "i64" | "int64" => some i64
  | "i32" | "int32" | "int" => some i32
  | "i16" | "int16" => some i16
  | "i8" | "int8" => some i8
  | "u8" | "uint8" => some u8
  | _ => none

def isSigned : DType → Bool
  | i64 | i32 | i16 | i8 => true
  | f32 | u8 => false

def modulus (d : DType) : Nat :=
  pow2 (8 * d.size)

/-- The integer that the word `w` stands for; for `f32` it is the bit pattern. -/
def toInt (d : DType) (w : Nat) : Int :=
  if d.isSigned ∧ d.modulus ≤ 2 * w then (w : Int) - d.modulus else w

/-- The word that stands for `v`, which wraps around when it does not fit. -/
def ofInt (d : DType) (v : Int) : Nat :=
  (v % (d.modulus : Int)).toNat

/-- The least integer of the type. -/
def least (d : DType) : Int :=
  if d.isSigned then -((d.modulus / 2 : Nat) : Int) else 0

def greatest (d : DType) : Int :=
  if d.isSigned then ((d.modulus / 2 : Nat) : Int) - 1 else (d.modulus : Int) - 1

/-! ## Numbers as elements -/

/-- The word of the element that is nearest to a number: floats are rounded, integers are cut toward
zero and held within the bounds of the type, and what is no number becomes the integer zero. -/
def nearestWord (d : DType) (v : Binary) : Nat :=
  match d with
  | f32 => Format.single.encode (Format.single.convert v)
  | _ => d.ofInt (v.truncate d.least d.greatest)

/-- The element that a word stores, as text. -/
def elementText (d : DType) (w : Nat) : String :=
  match d with
  | f32 => (Format.single.decode w).text .single
  | _ => toString (d.toInt w)

end DType

end TensorArena
