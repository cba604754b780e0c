import TensorArena.Graph.Check
import TensorArena.Interpreter.Operands

/-!
# Kernels

A kernel computes one operator. It is prepared once, invoked any number of times and freed once.

While it is prepared a kernel sees the declarations of its operands and asks for memory: scratch
blocks that it needs only while it runs, and one block of persistent data, which it may fill. What
it asks for is a tree of requests, each with what to do with the answer; the allocation pass walks
the tree, so a kernel reaches no byte that it was not granted.

Kernels may keep values outside the arena; `σ` is the type of all such values together.
-/

namespace TensorArena

/-- The inputs, and likewise the outputs, that an operator may have. -/
def maxOperands : Nat := 16

/-- The scratch blocks that an operator may ask for. -/
def maxScratch : Nat := 4

/-- The declarations that a kernel sees while it is prepared. -/
structure Signature where
  operator : Operator
  inputs : List (Option Tensor)
  outputs : List (Option Tensor)
  deriving DecidableEq, Repr

namespace Signature

/-- The declarations of an operator's operands. -/
def of (g : Graph) (op : Operator) : Signature where
  operator := op
  inputs := op.inputs.map fun operand => operand.bind fun id => g.tensors[id]?
  outputs := op.outputs.map fun operand => operand.bind fun id => g.tensors[id]?

def input? (s : Signature) (i : Nat) : Option Tensor :=
  (s.inputs[i]?).join

def output? (s : Signature) (i : Nat) : Option Tensor :=
  (s.outputs[i]?).join

end Signature

/-- What a kernel does to be prepared. -/
inductive Preparation (σ : Type) where
  /-- Nothing more. -/
  | done
  /-- Gives up. -/
  | fail (e : KernelError)
  /-- Asks for a scratch block; the answer is its number. -/
  | scratch (size : Nat) (granted : Nat → Preparation σ) (refused : KernelError → Preparation σ)
  /-- Asks for persistent data and fills it; the answer is what the bytes were before. -/
  | persistent (size : Nat) (fill : Bytes → Bytes) (granted : Bytes → Preparation σ)
      (refused : KernelError → Preparation σ)
  /-- Changes the values outside the arena; the answer is what they were before. -/
  | outside (change : σ → σ) (next : σ → Preparation σ)

/-- A running kernel: it reads and writes its operands and the values outside the arena, and may
fail. What it wrote before it failed stays written. -/
abbrev KernelM (σ : Type) := ExceptT KernelError (StateM (Operands × σ))

/-- The implementation of one operator. -/
structure Kernel (σ : Type) where
  prepare : Signature → Preparation σ := fun _ => .done
  invoke : KernelM σ Unit
  free : σ → σ := id

/-- Makes a kernel; making one may change the values outside the arena. -/
abbrev Factory (σ : Type) := σ → Kernel σ × σ

/-- The factory of kernels that are all alike. -/
def Factory.always (k : Kernel σ) : Factory σ :=
  fun outside => (k, outside)

/-- Which factory makes the kernels of a code. Whether a code has one depends on the code alone: a
resolver that answers otherwise the next time it is asked is not described. -/
abbrev Resolver (σ : Type) := OpCode → Option (Factory σ)

end TensorArena
