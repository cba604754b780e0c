import TensorArena.Kernel.Access
import TensorArena.Number.Binary

/-!
# Elementwise arithmetic

Addition and multiplication, element by element, over 32-bit floats and three types of integers.
An input either has as many elements as the output, or one that is used throughout. Integers wrap
around.
-/

namespace TensorArena

/-- An operation on elements. -/
inductive Arithmetic where
  | add
  | mul
  deriving DecidableEq, Repr

namespace Arithmetic

def name : Arithmetic → String
  | add => "add"
  | mul => "mul"

/-- The operation on words of integers. -/
def onIntegers (d : DType) : Arithmetic → Nat → Nat → Nat
  | add, a, b => (a + b) % d.modulus
  | mul, a, b => a * b % d.modulus

/-- The operation on words of 32-bit floats. -/
def onFloats : Arithmetic → Nat → Nat → Nat
  | add, a, b => Format.single.onWords Format.single.add a b
  | mul, a, b => Format.single.onWords Format.single.mul a b

def apply (op : Arithmetic) (d : DType) : Nat → Nat → Nat :=
  if d = .f32 then op.onFloats else op.onIntegers d

end Arithmetic

namespace Elementwise

/-- The types that have arithmetic. -/
def supports : DType → Bool
  | .f32 | .i32 | .i8 | .u8 => true
  | .i64 | .i16 => false

/-- Checks an input against the output: the same type, and as many elements or one. -/
def checkInput (op : Arithmetic) (out t : Tensor) : Except KernelError Unit :=
  if t.dtype ≠ out.dtype then .error (.tensor (.dtypeMismatch out.dtype t.dtype))
  else if t.shape.elements ≠ out.shape.elements ∧ t.shape.elements ≠ 1 then
    .error (.tensor (.shapeMismatch op.name t.shape out.shape))
  else .ok ()

/-- Checks the declarations of the operands. -/
def check (op : Arithmetic) (s : Signature) : Except KernelError Unit :=
  match s.input? 0, s.input? 1, s.output? 0 with
  | none, _, _ => .error (.missingInput 0)
  | some _, none, _ => .error (.missingInput 1)
  | some _, some _, none => .error (.missingOutput 0)
  | some lhs, some rhs, some out => do
    if ¬ supports out.dtype then throw (.tensor (.unsupportedDType op.name out.dtype))
    checkInput op out lhs
    checkInput op out rhs

/-- The elements of an input for an output of `n` elements. -/
def broadcast (n : Nat) (ws : List Nat) : Except KernelError (List Nat) :=
  if ws.length = n then .ok ws
  else
    match ws with
    | w :: _ => .ok (List.replicate n w)
    | [] => .error (.noElement 0 0)

/-- Computes the output in elements of a type. -/
def run (op : Arithmetic) (d : DType) : KernelM σ Unit := do
  let lhs ← KernelM.elements (← KernelM.look (·.input 0)) d
  let rhs ← KernelM.elements (← KernelM.look (·.input 1)) d
  let out ← KernelM.look (·.output 0)
  let n := (← KernelM.elements out d).length
  let lhs ← liftExcept (broadcast n lhs)
  let rhs ← liftExcept (broadcast n rhs)
  KernelM.storeOutput 0 out d (List.zipWith (op.apply d) lhs rhs)

/-- The kernel of an operation. -/
def kernel (op : Arithmetic) (free : σ → σ) : Kernel σ where
  prepare s :=
    match check op s with
    | .ok () => .done
    | .error e => .fail e
  invoke := do
    let out ← KernelM.look (·.output 0)
    if supports out.dtype then run op out.dtype
    else throw (.tensor (.unsupportedDType op.name out.dtype))
  free := free

end Elementwise

end TensorArena
