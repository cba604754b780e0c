import TensorArena.Json.Record
import TensorArena.Json.Writer
import TensorArena.Tensor.Packed
import TensorArena.Tensor.View

/-!
# Tensors of a graph

A tensor as the graph declares it. Constants bring their data along; variables keep their bytes
from one invocation to the next; all others are activations, whose bytes may be reused.
-/

namespace TensorArena

/-- How the bytes of a tensor are provided. -/
inductive TensorKind where
  | activation
  | constant
  | var
  deriving DecidableEq, Repr

def TensorKind.label : TensorKind → String
  | activation => "activation"
  | constant => "constant"
  | var => "variable"

/-- A tensor of a graph. -/
structure Tensor where
  name : String
  dtype : DType
  shape : Shape
  data : Option Packed := none
  isVariable : Bool := false
  deriving DecidableEq, Repr

namespace Tensor

/-- A tensor whose bytes are planned. -/
def activation (name : String) (dtype : DType) (shape : Shape) : Tensor :=
  { name, dtype, shape }

/-- A tensor with data of its own. -/
def constant (name : String) (dtype : DType) (shape : Shape) (data : Packed) : Tensor :=
  { name, dtype, shape, data := some data }

/-- A tensor that keeps its bytes between invocations. -/
def var (name : String) (dtype : DType) (shape : Shape) : Tensor :=
  { name, dtype, shape, isVariable := true }

/-- The kind of the tensor; data decides before the variable mark. -/
def kind (t : Tensor) : TensorKind :=
  if t.data.isSome then .constant else if t.isVariable then .var else .activation

/-- The bytes that the tensor calls for, cut off at the largest word. -/
def size (t : Tensor) : Nat :=
  t.shape.bytes t.dtype

def summary (t : Tensor) : String :=
  s!"{t.name} [{t.kind.label}] {t.dtype.label}{t.shape.text} ({t.size} bytes)"

def fieldNames : List String :=
  ["name", "dtype", "shape", "data", "is_variable"]

end Tensor

/-! ## JSON -/

def DType.toJson (d : DType) : Json :=
  .text d.label

def DType.ofJson? : Json → Option DType :=
  Json.label? DType.ofLabel?

def Shape.toJson (s : Shape) : Json :=
  .record [("dims", .nats s.dims)]

def Shape.ofJson? (j : Json) : Option Shape := do
  match ← j.slots? ["dims"] with
  | [dims] => some ⟨← Json.required (Json.list? Json.word?) dims⟩
  | _ => none

def Packed.toJson (p : Packed) : Json :=
  .nats (p.toBytes.map UInt8.toNat)

def Packed.ofJson? (j : Json) : Option Packed :=
  (Json.list? Json.byte? j).map Packed.ofBytes

namespace Tensor

/-- A tensor record, with all fields. -/
def toJson (t : Tensor) : Json :=
  .record [("name", .text t.name), ("dtype", t.dtype.toJson), ("shape", t.shape.toJson),
    ("data", .optional Packed.toJson t.data), ("is_variable", .bool t.isVariable)]

/-- Reads a tensor record; data and the variable mark may be missing. -/
def ofJson? (j : Json) : Option Tensor := do
  match ← j.slots? fieldNames with
  | [name, dtype, shape, data, isVariable] =>
    some {
      name := ← Json.required Json.text? name
      dtype := ← Json.required DType.ofJson? dtype
      shape := ← Json.required Shape.ofJson? shape
      data := ← Json.withDefault none (Json.nullable? Packed.ofJson?) data
      isVariable := ← Json.withDefault false Json.bool? isVariable }
  | _ => none

end Tensor

end TensorArena
