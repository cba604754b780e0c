import TensorArena.Graph.Check
import TensorArena.Json.Reader

/-!
# Manifests

The form in which people write graphs down: element types by name, constant data as a list of
numbers, operators with an optional name. A manifest is JSON; making a graph of it checks the types
and the constant data and leaves the structure to the check of graphs.
-/

namespace TensorArena

/-- A tensor as a manifest lists it. -/
structure ManifestTensor where
  name : String
  dtype : String
  shape : List Nat
  data : Option (List Binary) := none
  isVariable : Bool := false
  deriving DecidableEq, Repr

/-- An operator as a manifest lists it. -/
structure ManifestOperator where
  name : Option String := none
  op : String
  inputs : List (Option Nat)
  outputs : List (Option Nat)
  deriving DecidableEq, Repr

/-- A graph as it is written down. -/
structure Manifest where
  name : String
  tensors : List ManifestTensor
  operators : List ManifestOperator
  inputs : List Nat
  outputs : List Nat
  deriving DecidableEq, Repr

/-! ## JSON -/

/-- A double; what is no number is written as null. -/
def Binary.toJson (b : Binary) : Json :=
  match b.numeral? with
  | some n => .number n
  | none => .null

namespace ManifestTensor

/-- A tensor entry; absent data is left out. -/
def toJson (t : ManifestTensor) : Json :=
  .record ([("name", .text t.name), ("dtype", .text t.dtype), ("shape", .nats t.shape)] ++
    (match t.data with
      | some values => [("data", .array (values.map Binary.toJson))]
      | none => []) ++
    [("variable", .bool t.isVariable)])

/-- Reads a tensor entry. -/
def ofJson? (j : Json) : Option ManifestTensor := do
  match ← j.slots? ["name", "dtype", "shape", "data", "variable"] with
  | [name, dtype, shape, data, isVariable] =>
    some {
      name := ← Json.required Json.text? name
      dtype := ← Json.required Json.text? dtype
      shape := ← Json.required (Json.list? Json.word?) shape
      data := ← Json.withDefault none (Json.nullable? (Json.list? Json.double?)) data
      isVariable := ← Json.withDefault false Json.bool? isVariable }
  | _ => none

end ManifestTensor

namespace ManifestOperator

/-- An operator entry; an absent name is left out. -/
def toJson (op : ManifestOperator) : Json :=
  .record ((match op.name with
      | some name => [("name", .text name)]
      | none => []) ++
    [("op", .text op.op), ("inputs", Operator.operandsToJson op.inputs),
      ("outputs", Operator.operandsToJson op.outputs)])

/-- Reads an operator entry. -/
def ofJson? (j : Json) : Option ManifestOperator := do
  match ← j.slots? ["name", "op", "inputs", "outputs"] with
  | [name, op, inputs, outputs] =>
    some {
      name := ← Json.withDefault none (Json.nullable? Json.text?) name
      op := ← Json.required Json.text? op
      inputs := ← Json.required Operator.operandsOfJson? inputs
      outputs := ← Json.required Operator.operandsOfJson? outputs }
  | _ => none

end ManifestOperator

namespace Manifest

def toJson (m : Manifest) : Json :=
  .record [("name", .text m.name), ("tensors", .array (m.tensors.map ManifestTensor.toJson)),
    ("operators", .array (m.operators.map ManifestOperator.toJson)), ("inputs", .nats m.inputs),
    ("outputs", .nats m.outputs)]

/-- Reads a manifest. -/
def ofJson? (j : Json) : Option Manifest := do
  match ← j.slots? ["name", "tensors", "operators", "inputs", "outputs"] with
  | [name, tensors, operators, inputs, outputs] =>
    some {
      name := ← Json.required Json.text? name
      tensors := ← Json.required (Json.list? ManifestTensor.ofJson?) tensors
      operators := ← Json.required (Json.list? ManifestOperator.ofJson?) operators
      inputs := ← Json.required (Json.list? Json.word?) inputs
      outputs := ← Json.required (Json.list? Json.word?) outputs }
  | _ => none

end Manifest

/-! ## Constant data -/

/-- The word that stores a number as an element. A number becomes the nearest 32-bit float, or an
integer if it is whole and lies between the doubles nearest to the bounds of the type; the upper
bound of 64-bit integers is such a double, and is stored as the greatest integer. -/
def DType.wordOf? (d : DType) (v : Binary) : Option Nat :=
  match d with
  | .f32 => some (Format.single.encode (Format.single.convert v))
  | _ =>
    let f := Format.double
    if v.toInt?.isSome ∧ (f.ofInt d.least).le v ∧ v.le (f.ofInt d.greatest) then
      some (d.ofInt (v.truncate d.least d.greatest))
    else none

/-- The words that store numbers as elements, up to the first that does not fit. -/
def DType.wordsOf (d : DType) : List Binary → Except TensorFault (List Nat)
  | [] => .ok []
  | v :: rest =>
    match d.wordOf? v with
    | none => .error (.valueOutOfRange v d)
    | some w =>
      match d.wordsOf rest with
      | .ok ws => .ok (w :: ws)
      | .error e => .error e

/-- Packs the numbers of a constant: the shape must be addressable, then their number must be right,
then each must fit. -/
def encodeConstant (d : DType) (shape : Shape) (values : List Binary) :
    Except TensorFault Packed :=
  match shape.bytes? d, shape.elements? with
  | some _, some count =>
    if values.length ≠ count then .error (.valueCount shape count values.length)
    else
      match d.wordsOf values with
      | .ok ws => .ok (Packed.ofElements d.size ws)
      | .error e => .error e
  | _, _ => .error (.tooLarge shape d)

/-! ## From manifest to graph -/

/-- The tensor of an entry. -/
def ManifestTensor.toTensor (t : ManifestTensor) : Except TensorFault Tensor :=
  match DType.ofName? t.dtype with
  | none => .error (.unsupportedDType t.dtype)
  | some dtype =>
    let tensor : Tensor := { name := t.name, dtype, shape := ⟨t.shape⟩, isVariable := t.isVariable }
    match t.data with
    | none => .ok tensor
    | some values =>
      match encodeConstant dtype ⟨t.shape⟩ values with
      | .ok data => .ok { tensor with data := some data }
      | .error e => .error e

/-- The operator of an entry; without a name it gets its code and its number. -/
def ManifestOperator.toOperator (op : ManifestOperator) (index : Nat) : Operator :=
  let code := OpCode.ofName op.op
  ⟨op.name.getD s!"{code.label}_{index}", code, op.inputs, op.outputs⟩

namespace Manifest

/-- The tensors of entries, and a warning for every name that came before. The warnings up to the
first entry that fails are kept. -/
def tensorsOf (seen : List String) : List ManifestTensor → Log × Except ModelError (List Tensor)
  | [] => ([], .ok [])
  | t :: rest =>
    let warning : Log :=
      if t.name ∈ seen then [⟨.warn, s!"duplicate tensor name '{t.name}' in manifest"⟩] else []
    match t.toTensor with
    | .error fault => (warning, .error (.tensor t.name fault))
    | .ok tensor =>
      let (log, tensors) := tensorsOf (t.name :: seen) rest
      (warning ++ log, tensors.map (tensor :: ·))

/-- The graph of a manifest, not yet checked. -/
def toGraph (m : Manifest) : Log × Except ModelError Graph :=
  let (log, tensors) := tensorsOf [] m.tensors
  (log, tensors.map fun tensors =>
    { name := m.name
      tensors
      operators := m.operators.zipIdx.map fun (op, i) => op.toOperator i
      inputs := m.inputs
      outputs := m.outputs })

end Manifest

/-! ## Loading

From the text of a manifest to a checked graph, with what is reported on the way: names that repeat,
then tensors that nothing mentions, then the graph in one line. -/

def Manifest.read (text : String) : Except ModelError Manifest :=
  match (Json.read text).bind Manifest.ofJson? with
  | some m => .ok m
  | none => .error .unparsable

/-- Loads a checked graph from the text of a manifest. -/
def CheckedGraph.load (text : String) : Log × Except ModelError CheckedGraph :=
  match Manifest.read text with
  | .error e => ([], .error e)
  | .ok m =>
    match m.toGraph with
    | (log, .error e) => (log, .error e)
    | (log, .ok g) =>
      match g.validate with
      | .error e => (log, .error e)
      | .ok checked => (log ++ g.warnings ++ [⟨.info, g.summary⟩], .ok checked)

end TensorArena
