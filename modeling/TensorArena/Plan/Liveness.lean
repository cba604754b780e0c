import TensorArena.Graph.Check
import TensorArena.Plan.Strategy

/-!
# Lifetimes of a graph

Which operators need the data of an activation. A graph input is there from the first operator on,
a graph output is kept until the last one, and in between every operator that mentions the tensor
needs it. Constants and variables are not planned, and neither is a tensor that nothing mentions.
-/

namespace TensorArena.Graph

/-- The operators at which a tensor is needed: the first for a graph input, every one that mentions
it, and the last for a graph output. -/
def touches (g : Graph) (id : Nat) : List Nat :=
  (if id ∈ g.inputs then [0] else []) ++
    (g.operators.zipIdx.filter fun (op, _) => id ∈ op.operandIds).map (·.2) ++
    (if id ∈ g.outputs then [g.operators.length - 1] else [])

/-- The lifetime of a tensor, from the least to the greatest operator at which it is needed. -/
def lifetime? (g : Graph) (id size : Nat) : Option Lifetime :=
  match g.touches id with
  | [] => none
  | k :: ks => some ⟨.tensor id, ks.foldl min k, ks.foldl max k, size⟩

/-- The lifetimes of all activations that something mentions, in the order of their numbers. -/
def lifetimes (g : Graph) : List Lifetime :=
  g.tensors.zipIdx.filterMap fun (t, id) =>
    if t.kind = .activation then g.lifetime? id t.size else none

def plan (g : Graph) (strategy : Strategy) (align capacity : Nat) : Except PlanError Plan :=
  strategy.place g.lifetimes align capacity

end TensorArena.Graph
