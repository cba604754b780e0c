import TensorArena.Arena.Split
import TensorArena.Graph.Tensor
import TensorArena.Graph.Operator
import TensorArena.Interpreter.Error

/-!
# Operands

The bytes that a kernel sees while it runs: its inputs and outputs, its scratch blocks and its
persistent data. Of the inputs only the variables can be written.
-/

namespace TensorArena

/-- An input of a running operator. -/
inductive Input where
  | absent
  | shared (tensor : Tensor) (slice : Slice)
  | var (tensor : Tensor) (slice : Slice)
  deriving DecidableEq, Repr

/-- All bytes of a running operator, the operator itself, and a value that the owner of the
interpreter left for kernels. -/
structure Operands where
  operator : Operator
  inputs : List Input
  outputs : List (Option (Tensor × Slice))
  scratch : List Slice
  userData : Slice
  context : Option Int
  deriving DecidableEq, Repr

/-- Views a slice as a tensor, for a kernel. -/
def Tensor.viewOf (t : Tensor) (slice : Slice) : Except KernelError View :=
  (View.make t.shape t.dtype slice).mapError .tensor

/-- The bytes of an input that can be written. -/
def Input.writable : Input → Option Slice
  | var _ slice => some slice
  | _ => none

namespace Operands

/-- An input, unless it is left out. -/
def input? (o : Operands) (i : Nat) : Except KernelError (Option View) :=
  match o.inputs[i]? with
  | some (.shared t slice) | some (.var t slice) => (t.viewOf slice).map some
  | some .absent | none => .ok none

def input (o : Operands) (i : Nat) : Except KernelError View :=
  match o.input? i with
  | .ok (some v) => .ok v
  | .ok none => .error (.missingInput i)
  | .error e => .error e

/-- An input that must be a variable. -/
def variableInput (o : Operands) (i : Nat) : Except KernelError View :=
  match o.inputs[i]? with
  | some (.var t slice) => t.viewOf slice
  | some (.shared ..) => .error (.notVariable i)
  | some .absent | none => .error (.missingInput i)

/-- An output, unless it is left out. -/
def output? (o : Operands) (i : Nat) : Except KernelError (Option View) :=
  match o.outputs[i]? with
  | some (some (t, slice)) => (t.viewOf slice).map some
  | some none | none => .ok none

def output (o : Operands) (i : Nat) : Except KernelError View :=
  match o.output? i with
  | .ok (some v) => .ok v
  | .ok none => .error (.missingOutput i)
  | .error e => .error e

/-- A scratch block that was asked for. -/
def scratchBlock (o : Operands) (k : Nat) : Except KernelError Slice :=
  match o.scratch[k]? with
  | some slice => .ok slice
  | none => .error (.unknownScratch k)

def setInput (o : Operands) (i : Nat) (slice : Slice) : Operands :=
  { o with
    inputs := o.inputs.modify i fun
      | .var t _ => .var t slice
      | other => other }

def setOutput (o : Operands) (i : Nat) (slice : Slice) : Operands :=
  { o with outputs := o.outputs.modify i fun out => out.map fun (t, _) => (t, slice) }

def setScratch (o : Operands) (k : Nat) (slice : Slice) : Operands :=
  { o with scratch := o.scratch.set k slice }

/-- All slices that a kernel may write. -/
def writable (o : Operands) : List Slice :=
  o.inputs.filterMap Input.writable ++ o.outputs.filterMap (fun out => out.map (·.2)) ++
    o.scratch ++ [o.userData]

end Operands

/-- Puts back what a kernel wrote: the bytes of its writable slices as it left them go to the places
where they were taken from, and to no other place. -/
def Memory.writeBack (m : Memory) (before after : Operands) : Memory :=
  m.putBack before.writable (after.writable.map (·.bytes))

end TensorArena
