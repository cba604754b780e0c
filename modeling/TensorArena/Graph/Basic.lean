import TensorArena.Graph.Operator
import TensorArena.Graph.Tensor

/-!
# Graphs

A static computation graph: tensors by number, and operators in the order in which they run.
-/

namespace TensorArena

/-- A graph, checked or not. -/
structure Graph where
  name : String
  tensors : List Tensor
  operators : List Operator
  inputs : List Nat
  outputs : List Nat
  deriving DecidableEq, Repr

namespace Graph

def totalBytes (g : Graph) (kind : TensorKind) : Nat :=
  total ((g.tensors.filter fun t => t.kind = kind).map Tensor.size)

def summary (g : Graph) : String :=
  s!"Model '{g.name}': {g.operators.length} operators, {g.tensors.length} tensors " ++
    s!"({g.totalBytes .activation} B activations, {g.totalBytes .var} B variables, " ++
    s!"{g.totalBytes .constant} B constants), {g.inputs.length} inputs, {g.outputs.length} outputs"

/-- The graph with a line for every tensor and operator. -/
def text (g : Graph) : String :=
  s!"ModelGraph '{g.name}' ({g.operators.length} operators, {g.tensors.length} tensors):\n" ++
    String.join (g.tensors.zipIdx.map fun (t, i) => s!"  t{i}: {t.summary}\n") ++
    String.join (g.operators.map fun op => s!"  {op.summary}\n")

/-- Whether some operator or the graph's inputs or outputs mention a tensor. -/
def References (g : Graph) (id : Nat) : Prop :=
  id ∈ g.inputs ∨ id ∈ g.outputs ∨ ∃ op ∈ g.operators, id ∈ op.operandIds

instance (g : Graph) (id : Nat) : Decidable (g.References id) :=
  inferInstanceAs (Decidable (_ ∨ _ ∨ _))

def unreferenced (g : Graph) : List Tensor :=
  (g.tensors.zipIdx.filter fun (_, id) => ¬ g.References id).map (·.1)

end Graph

end TensorArena
