import TensorArena.Word
import TensorArena.Tensor.DType

/-!
# Shapes

The dimensions of a tensor and the number of elements and bytes they call for. A count that is no
64-bit word is reported as absent, or cut off at the largest word where a number is wanted.
-/

namespace TensorArena

/-- The dimensions of a tensor, outermost first. -/
structure Shape where
  dims : List Nat
  deriving DecidableEq, Repr

namespace Shape

def vector (length : Nat) : Shape :=
  ⟨[length]⟩

def matrix (rows columns : Nat) : Shape :=
  ⟨[rows, columns]⟩

/-- The product of the dimensions, taken from the left; absent as soon as a partial product is no
word. A shape without dimensions holds one element. -/
def elements? (s : Shape) : Option Nat :=
  s.dims.foldlM Word.mul? 1

/-- The bytes of all elements, absent when that is no word. -/
def bytes? (s : Shape) (d : DType) : Option Nat :=
  s.elements?.bind fun n => Word.mul? n d.size

/-- The number of elements, cut off at the largest word. -/
def elements (s : Shape) : Nat :=
  s.elements?.getD Word.max

/-- The bytes of all elements, cut off at the largest word. -/
def bytes (s : Shape) (d : DType) : Nat :=
  (s.bytes? d).getD Word.max

def text (s : Shape) : String :=
  "[" ++ ", ".intercalate (s.dims.map fun d => toString d) ++ "]"

end Shape

end TensorArena
