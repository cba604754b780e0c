import TensorArena.Graph.Sample
import TensorArena.Kernel.Access

/-!
# Sample kernels

Kernels that between them use everything a kernel can use: scratch blocks, persistent data,
variables, operands that are left out. Each is given what to do with the values outside the arena
when it is freed.
-/

namespace TensorArena.SampleKernel

/-- Adds the first elements of two inputs in a scratch block of four bytes, and fills one or two
outputs with the sum. -/
def mockCustom (free : σ → σ) : Kernel σ where
  prepare _ := .scratch DType.i32.size (fun _ => .done) .fail
  invoke := do
    let a ← KernelM.first (← KernelM.look (·.input 0)) .i32
    let b ← KernelM.first (← KernelM.look (·.input 1)) .i32
    let block ← KernelM.look (·.scratchBlock 0)
    let staged ← liftExcept ((block.elements .i32 .i32).mapError KernelError.tensor)
    if staged.isEmpty then throw (.unknownScratch 0)
    let sum := (a + b) % DType.i32.modulus
    KernelM.change fun o => o.setScratch 0 (block.store DType.i32.size [sum])
    KernelM.fillOutput 0 (← KernelM.look (·.output 0)) .i32 sum
    match ← KernelM.look (·.output? 1) with
    | some second => KernelM.fillOutput 1 second .i32 sum
    | none => pure ()
  free := free

/-- The name of the kernel with a state, in error texts. -/
def simpleStatefulName : String := "simple_stateful_op"

/-- What the kernel with a state asks for: a block to sort in, and its count, which starts at
zero. -/
def simpleStatefulPreparation (s : Signature) : Preparation σ :=
  match s.input? 0 with
  | none => .fail (.missingInput 0)
  | some input =>
    if input.dtype ≠ .u8 then .fail (.tensor (.unsupportedDType simpleStatefulName input.dtype))
    else
      .scratch input.shape.elements
        (fun _ =>
          .persistent DType.i32.size (fun before => before.map fun _ => 0) (fun _ => .done) .fail)
        .fail

/-- Sorts its input bytes in a scratch block, counts its runs in persistent data, and reports the
median and the count. -/
def simpleStateful (free : σ → σ) : Kernel σ where
  prepare := simpleStatefulPreparation
  invoke := do
    let values ← KernelM.elements (← KernelM.look (·.input 0)) .u8
    let block ← KernelM.look (·.scratchBlock 0)
    if block.bytes.length < values.length then throw (.unknownScratch 0)
    let sorted := values.mergeSort
    KernelM.change fun o => o.setScratch 0 (block.store DType.u8.size sorted)
    let median := (sorted[sorted.length / 2]?).getD 0
    let userData ← KernelM.look fun o => .ok o.userData
    let counts ← liftExcept ((userData.elements .i32 .i32).mapError KernelError.tensor)
    match counts with
    | [] => throw (.failed "invocation counter missing")
    | count :: _ =>
      let count := (count + 1) % DType.i32.modulus
      KernelM.change fun o => { o with userData := userData.store DType.i32.size [count] }
      KernelM.fillOutput 0 (← KernelM.look (·.output 0)) .u8 median
      KernelM.fillOutput 1 (← KernelM.look (·.output 1)) .i32 count
  free := free

/-- Adds the first elements of a 32-bit, an 8-bit and a 32-bit input. -/
def multipleInputs (free : σ → σ) : Kernel σ where
  invoke := do
    let a ← KernelM.first (← KernelM.look (·.input 0)) .i32
    let b ← KernelM.first (← KernelM.look (·.input 1)) .i8
    let c ← KernelM.first (← KernelM.look (·.input 2)) .i32
    let sum := DType.i32.ofInt (DType.i32.toInt a + DType.i8.toInt b + DType.i32.toInt c)
    KernelM.fillOutput 0 (← KernelM.look (·.output 0)) .i32 sum
  free := free

/-- Does nothing. -/
def noOp (free : σ → σ) : Kernel σ where
  invoke := pure ()
  free := free

/-- The name of the counting kernel, in error texts. -/
def accumulateName : String := "accumulate"

/-- Checks that the first input is a variable of the same shape as the first output. -/
def checkAccumulate (s : Signature) : Except KernelError Unit :=
  match s.input? 0 with
  | none => .error (.missingInput 0)
  | some state =>
    if ¬ state.isVariable then .error (.notVariable 0)
    else
      match s.output? 0 with
      | none => .error (.missingOutput 0)
      | some out =>
        if state.shape ≠ out.shape then
          .error (.tensor (.shapeMismatch accumulateName state.shape out.shape))
        else .ok ()

/-- Adds one to every element of a variable and copies the variable to the output. -/
def accumulate (free : σ → σ) : Kernel σ where
  prepare s :=
    match checkAccumulate s with
    | .ok () => .done
    | .error e => .fail e
  invoke := do
    let state ← KernelM.look (·.variableInput 0)
    let values ← KernelM.elements state .i32
    let values := values.map fun w => (w + 1) % DType.i32.modulus
    KernelM.change fun o => o.setInput 0 (state.slice.store DType.i32.size values)
    let out ← KernelM.look (·.output 0)
    let places ← KernelM.elements out .i32
    if places.length ≠ values.length then throw (.noElement places.length values.length)
    KernelM.storeOutput 0 out .i32 values
  free := free

end TensorArena.SampleKernel
