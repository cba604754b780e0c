import Mathlib.Data.List.Forall2
import TensorArena.Interpreter.Access
import TensorArena.Interpreter.Invoke
import TensorArena.Proofs.Graph.Checked
import TensorArena.Proofs.Interpreter.Prepare

/-!
# A reference for running graphs

The reference knows no arena. Every tensor has a store of its own and so has the persistent data of
every operator, variables start at zero, and an operator is a function: from the bytes of its inputs
and its persistent data to the bytes of its variable inputs, of its outputs and its new persistent
data. `Kernel.Computes` says what a kernel must keep to so that it is described by such a function.
-/

namespace TensorArena

variable {σ π : Type}

/-! ## Operators as functions -/

/-- What an operator leaves: the bytes of its variable inputs and then of its outputs, and its
persistent data. -/
structure Results where
  written : List Bytes
  persistent : Bytes
  deriving DecidableEq, Repr

/-- An operator as a function of the bytes of its inputs, nothing for one that is left out, and of its
persistent data. -/
structure Meaning where
  initial : Bytes
  apply : List (Option Bytes) → Bytes → Results

/-- The bytes of a tensor. -/
def Graph.sizeOf (g : Graph) (id : Nat) : Nat :=
  (g.tensors[id]?.map Tensor.size).getD 0

theorem Graph.sizeOf_eq {g : Graph} {id : Nat} {t : Tensor} (ht : g.tensors[id]? = some t) :
    g.sizeOf id = t.size := by
  rw [sizeOf, ht]
  rfl

/-- Whether the number is that of a variable. -/
def Graph.IsVar (g : Graph) (id : Nat) : Prop :=
  ∃ t ∈ g.tensors[id]?, t.kind = .var

instance (g : Graph) (id : Nat) : Decidable (g.IsVar id) :=
  inferInstanceAs (Decidable (∃ t ∈ g.tensors[id]?, t.kind = .var))

/-- The tensors that an operator may write: its variable inputs and then its outputs. -/
def Operator.targets (op : Operator) (g : Graph) : List Nat :=
  op.inputIds.filter (fun id => g.IsVar id) ++ op.outputIds

/-! ## Stores of their own -/

/-- The bytes of every tensor, and the persistent data of every operator. -/
structure Stores where
  tensors : Nat → Bytes
  persistent : Nat → Bytes

namespace Stores

/-- The value of an operand: constants have it in the graph. -/
def value (v : Stores) (g : Graph) : Option Nat → Option Bytes
  | none => none
  | some id =>
    match g.tensors[id]?.bind Tensor.data with
    | some data => some data.toBytes
    | none => some (v.tensors id)

theorem value_of_constant (v : Stores) {g : Graph} {id : Nat} {t : Tensor}
    (ht : g.tensors[id]? = some t) {data : Packed} (hd : t.data = some data) :
    v.value g (some id) = some data.toBytes := by
  simp only [value, ht, Option.bind_some, hd]

theorem value_of_data (v : Stores) {g : Graph} {id : Nat} {t : Tensor}
    (ht : g.tensors[id]? = some t) (hd : t.data = none) :
    v.value g (some id) = some (v.tensors id) := by
  simp only [value, ht, Option.bind_some, hd]

/-- Other bytes for a tensor. -/
def put (v : Stores) (id : Nat) (bytes : Bytes) : Stores :=
  { v with tensors := fun x => if x = id then bytes else v.tensors x }

/-- Other bytes for tensors, in order. -/
def putAll (v : Stores) (pairs : List (Nat × Bytes)) : Stores :=
  pairs.foldl (fun v p => v.put p.1 p.2) v

/-- Other persistent data for an operator. -/
def keep (v : Stores) (k : Nat) (bytes : Bytes) : Stores :=
  { v with persistent := fun x => if x = k then bytes else v.persistent x }

/-- Runs operator number `k`. -/
def step (v : Stores) (g : Graph) (op : Operator) (k : Nat) (f : Meaning) : Stores :=
  let r := f.apply (op.inputs.map (v.value g)) (v.persistent k)
  (v.putAll ((op.targets g).zip r.written)).keep k r.persistent

/-- Runs operators in order; `k` counts them. -/
def run (g : Graph) : List (Operator × Meaning) → (k : Nat) → Stores → Stores
  | [], _, v => v
  | (op, f) :: rest, k, v => run g rest (k + 1) (v.step g op k f)

/-- The stores at the start: all zero, and persistent data as the operators begin with. -/
def start (g : Graph) (meanings : List Meaning) : Stores where
  tensors id := List.replicate (g.sizeOf id) 0
  persistent k := (meanings[k]?.map Meaning.initial).getD []

/-- Writes graph inputs, given by their positions. -/
def feed (v : Stores) (g : Graph) (writes : List (Nat × Bytes)) : Stores :=
  v.putAll (writes.filterMap fun (index, bytes) => g.inputs[index]?.map fun id => (id, bytes))

/-- One round: writes graph inputs, and then runs every operator once. -/
def round (g : Graph) (meanings : List Meaning) (v : Stores) (writes : List (Nat × Bytes)) :
    Stores :=
  run g (g.operators.zip meanings) 0 (v.feed g writes)

/-- Rounds in order, from the start. -/
def rounds (g : Graph) (meanings : List Meaning) (all : List (List (Nat × Bytes))) : Stores :=
  all.foldl (round g meanings) (start g meanings)

end Stores

/-! ## What kernels keep to -/

/-- Bytes that a kernel may see for a tensor: the data of a constant, or as many as the tensor has. -/
def Slice.Fits (slice : Slice) (t : Tensor) : Prop :=
  arenaAlignment ∣ slice.address ∧
    match t.data with
    | some data => slice.bytes = data.toBytes
    | none => slice.bytes.length = t.size

/-- What a kernel sees as an input: a variable can be written, and nothing else can. -/
def Input.Fits (g : Graph) : Option Nat → Input → Prop
  | none, .absent => True
  | some id, .shared t slice => g.tensors[id]? = some t ∧ ¬ g.IsVar id ∧ slice.Fits t
  | some id, .var t slice => g.tensors[id]? = some t ∧ g.IsVar id ∧ slice.Fits t
  | _, _ => False

/-- What a kernel sees as an output. -/
def Slice.FitsOutput (g : Graph) : Option Nat → Option (Tensor × Slice) → Prop
  | none, none => True
  | some id, some (t, slice) => g.tensors[id]? = some t ∧ slice.Fits t
  | _, _ => False

/-- The operands that a kernel may be run on after it was granted so much. -/
structure Operands.Fits (o : Operands) (g : Graph) (op : Operator) (grant : Grant) : Prop where
  operator_eq : o.operator = op
  inputs : List.Forall₂ (Input.Fits g) op.inputs o.inputs
  outputs : List.Forall₂ (Slice.FitsOutput g) op.outputs o.outputs
  scratch : o.scratch.map (fun slice => slice.bytes.length) = grant.scratch
  scratch_aligned : ∀ slice ∈ o.scratch, arenaAlignment ∣ slice.address
  userData : o.userData.bytes.length = (grant.userData.map ByteRange.length).getD 0
  userData_aligned : arenaAlignment ∣ o.userData.address

/-- The bytes of an input. -/
def Input.bytes : Input → Option Bytes
  | absent => none
  | shared _ slice | var _ slice => some slice.bytes

/-- Preparing the kernel on some sound site can end with that grant and these persistent data. -/
def Kernel.Prepares (k : Kernel σ) (signature : Signature) (grant : Grant) (data : Bytes) : Prop :=
  ∃ (π : Type) (s s' : Site σ π), s.Sound ∧ (k.prepare signature).run {} s = (.ok grant, s') ∧
    data = (grant.userData.map s'.memory.piece).getD []

/-- The kernel is described by a function: whatever the arena held before, preparing it leaves the
same persistent data, and a run that succeeds leaves in the slices that it may write what the function
gives, but for scratch blocks. Neither the bytes that outputs and scratch blocks held before nor the
addresses and the values outside the arena have a part in it. -/
structure Kernel.Computes (k : Kernel σ) (g : Graph) (op : Operator) (f : Meaning) : Prop where
  initial : ∀ grant data, k.Prepares (.of g op) grant data → data = f.initial
  sizes : ∀ inputs persistent,
    (f.apply inputs persistent).written.map List.length = (op.targets g).map g.sizeOf ∧
      (f.apply inputs persistent).persistent.length = persistent.length
  results : ∀ grant data, k.Prepares (.of g op) grant data → ∀ o outside after outside',
    o.Fits g op grant → k.invoke.run (o, outside) = (.ok (), after, outside') →
    ∃ scratch, scratch.map List.length = grant.scratch ∧
      after.writable.map (fun slice => slice.bytes) =
        (f.apply (o.inputs.map Input.bytes) o.userData.bytes).written ++ scratch ++
          [(f.apply (o.inputs.map Input.bytes) o.userData.bytes).persistent]

/-! ## Rounds of an interpreter -/

/-- All graph inputs are written, each with as many bytes as it has. -/
structure Graph.Full (g : Graph) (writes : List (Nat × Bytes)) : Prop where
  sizes : ∀ index bytes id, (index, bytes) ∈ writes → g.inputs[index]? = some id →
    bytes.length = g.sizeOf id
  all : ∀ index < g.inputs.length, ∃ bytes, (index, bytes) ∈ writes

namespace Interpreter

/-- Writes one graph input through a handle, if it can be had. -/
def feedInput (i : Interpreter σ π) (s : Site σ π) (write : Nat × Bytes) : Site σ π :=
  match i.writableInput s write.1 with
  | .ok h => s.put { h with slice := ⟨h.slice.address, write.2⟩ }
  | .error _ => s

/-- One round: writes graph inputs, and then invokes the interpreter. -/
def round (i : Interpreter σ π) (s : Site σ π) (writes : List (Nat × Bytes)) :
    Except ExecutionError Unit × Interpreter σ π × Site σ π :=
  i.invoke (writes.foldl i.feedInput s)

/-- Rounds in order, whatever they answer. -/
def rounds (i : Interpreter σ π) (s : Site σ π) (all : List (List (Nat × Bytes))) :
    Interpreter σ π × Site σ π :=
  all.foldl (fun p writes => (p.1.round p.2 writes).2) (i, s)

end Interpreter

end TensorArena
