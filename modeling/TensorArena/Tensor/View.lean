import TensorArena.Tensor.Shape

/-!
# Typed views

A slice is a run of bytes at an address; a view is a slice read as a tensor. A view exists only
over exactly as many bytes as its shape and element type call for, and its elements are handed out
only as the type that the tensor holds, from an address that suits that type.
-/

namespace TensorArena

/-- Why bytes cannot be read as elements of several bytes each. -/
inductive CastFault where
  /-- The first byte is not at a multiple of the element size. -/
  | unaligned
  /-- The length is no multiple of the element size. -/
  | ragged
  deriving DecidableEq, Repr

def CastFault.text : CastFault → String
  | unaligned => "TargetAlignmentGreaterAndInputNotAligned"
  | ragged => "OutputSliceWouldHaveSlop"

/-- What can go wrong between tensors and bytes. -/
inductive TensorError where
  | sizeMismatch (expected actual : Nat)
  | dtypeMismatch (expected actual : DType)
  | misaligned (dtype : DType) (length : Nat) (fault : CastFault)
  | shapeMismatch (operation : String) (lhs rhs : Shape)
  | unsupportedDType (operation : String) (dtype : DType)
  deriving DecidableEq, Repr

/-- What went wrong, in words. -/
def TensorError.message : TensorError → String
  | sizeMismatch expected actual =>
    s!"buffer size mismatch: expected {expected} bytes, got {actual}"
  | dtypeMismatch expected actual =>
    s!"dtype mismatch: tensor holds {actual.label}, view requested {expected.label}"
  | misaligned dtype length fault =>
    s!"cannot view {length} bytes as {dtype.label}: {fault.text}"
  | shapeMismatch operation lhs rhs =>
    s!"incompatible shapes for {operation}: {lhs.text} vs {rhs.text}"
  | unsupportedDType operation dtype =>
    s!"unsupported dtype {dtype.label} for operation {operation}"

/-- A slice that holds a tensor. -/
structure View where
  shape : Shape
  dtype : DType
  slice : Slice
  deriving DecidableEq, Repr

/-- Reads bytes that hold elements of type `dtype` as words of type `wanted`: the types must agree,
then the address must suit them, then the length. -/
def Slice.elements (s : Slice) (dtype wanted : DType) : Except TensorError (List Nat) :=
  if dtype ≠ wanted then .error (.dtypeMismatch wanted dtype)
  else if s.address % wanted.size ≠ 0 then .error (.misaligned dtype s.bytes.length .unaligned)
  else if s.bytes.length % wanted.size ≠ 0 then .error (.misaligned dtype s.bytes.length .ragged)
  else .ok (Bytes.words wanted.size s.bytes)

/-- The slice with its leading elements replaced by words of the given width. -/
def Slice.store (s : Slice) (width : Nat) (ws : List Nat) : Slice :=
  { s with bytes := Bytes.overlay s.bytes (Bytes.ofWords width ws) }

/-- The slice with every element replaced by the word `w`. -/
def Slice.fill (s : Slice) (width : Nat) (w : Nat) : Slice :=
  s.store width (List.replicate (s.bytes.length / width) w)

namespace View

/-- Views a slice as a tensor; refuses any length but the one that shape and type call for. -/
def make (shape : Shape) (dtype : DType) (slice : Slice) : Except TensorError View :=
  if shape.bytes dtype ≠ slice.bytes.length then
    .error (.sizeMismatch (shape.bytes dtype) slice.bytes.length)
  else .ok ⟨shape, dtype, slice⟩

/-- The elements of the view, if they are of the wanted type. -/
def elements (v : View) (wanted : DType) : Except TensorError (List Nat) :=
  v.slice.elements v.dtype wanted

end View

end TensorArena
