import Mathlib.Control.Monad.Basic
import TensorArena.Graph.Sample
import TensorArena.Kernel.Elementwise
import TensorArena.Kernel.Sample
import TensorArena.Proofs.Interpreter.States

/-!
# Errors that end an interpreter

The holder of a store may write anything into it, the tables of an interpreter included, so nothing
is assumed here about the bytes that an invocation meets. The error of a kernel is final: from then on
every invocation is refused, whatever is called meanwhile and wherever. An operator that cannot be
bound stops the run as well, and leaves the interpreter as it was, with the operators before it run;
the next invocation starts over with the first of them.
-/

namespace TensorArena

namespace Interpreter

variable {σ π : Type}

/-- The interpreter after calls of any kind, each on a site of its own. -/
inductive Later : Interpreter σ π → Interpreter σ π → Prop
  | refl (i : Interpreter σ π) : Later i i
  | equip {i j : Interpreter σ π} (strategy : Strategy) (profiler : Option (Profiler π))
      (profiling : Bool) : Later i j → Later i { j with strategy, profiler, profiling }
  | setContext {i j : Interpreter σ π} (value : Int) (s : Site σ π) :
      Later i j → Later i (j.setContext value s).2.1
  | allocate {i j : Interpreter σ π} (s : Site σ π) : Later i j → Later i (j.allocate s).2.1
  | invoke {i j : Interpreter σ π} (s : Site σ π) : Later i j → Later i (j.invoke s).2.1

variable {i j : Interpreter σ π}

/-- No call brings a failed interpreter back. -/
theorem Later.state_of_failed (h : i.Later j) {known : Option Tables}
    (hstate : i.state = .failed known) : j.state = .failed known := by
  induction h with
  | refl => exact hstate
  | equip strategy profiler profiling _ ih => exact ih
  | setContext value s _ ih =>
    unfold Interpreter.setContext
    split
    · exact ih
    · exact ih
  | allocate s _ ih =>
    rw [allocate_of_failed (ih)]
    exact ih
  | invoke s _ ih =>
    rw [invoke_of_failed (ih)]
    exact ih

/-- How an invocation that fails leaves an allocated interpreter, for any bytes in the store: failed
if the error is that of a kernel, and as it was if an operator was not bound. -/
theorem runOnce_error {tables : Tables} {s : Site σ π} {e : ExecutionError}
    (herror : (i.runOnce tables s).1 = .error e) :
    (∃ index name cause, e = .kernel index name cause ∧
      (i.runOnce tables s).2.1 = { i with state := .failed (some tables) }) ∨
    e.OfBinding ∧ (i.runOnce tables s).2.1 = i ∨
    e = .busy ∧ i.runOnce tables s = (.error .busy, i, s) := by
  unfold runOnce at herror ⊢
  split at herror
  · rename_i hheld
    cases herror
    exact .inr (.inr ⟨rfl, if_pos hheld⟩)
  · rename_i hfree
    rw [if_neg hfree]
    have hruns := Pass.runAll_kernelFails i.graph.toGraph i.activeProfiler i.context tables
      (i.graph.operators.zip i.kernels) 0 s
    split at herror
    · rename_i index name cause s' hexec
      cases herror
      exact .inl ⟨index, name, cause, rfl, rfl⟩
    · rename_i outcome s' hkernel hexec
      cases herror
      rcases (hruns.of_error hexec).1 with hbinding | ⟨index, name, cause, rfl⟩
      · exact .inr (.inl ⟨hbinding, rfl⟩)
      · exact absurd rfl (hkernel index name cause)

/-- An allocated interpreter is invoked on a store with any bytes, and answers an error, though
nobody holds the store. If the error is not one of binding it is that of a kernel; the interpreter has
failed, and after any more calls an invocation is still refused and changes nothing. If it is one of
binding the interpreter is as it was. -/
theorem invoke_error_final {tables : Tables} (hstate : i.state = .allocated tables) (s : Site σ π)
    {e : ExecutionError} (herror : (i.invoke s).1 = .error e) (hbusy : e ≠ .busy) :
    (¬ e.OfBinding →
      (∃ index name cause, e = .kernel index name cause) ∧
      (i.invoke s).2.1.state = .failed (some tables) ∧
      ∀ j, (i.invoke s).2.1.Later j → ∀ s', j.invoke s' = (.error .failed, j, s')) ∧
    (e.OfBinding → (i.invoke s).2.1 = i) := by
  rw [invoke_of_allocated hstate] at herror ⊢
  rcases runOnce_error herror with ⟨index, name, cause, rfl, hafter⟩ | ⟨hbinding, hafter⟩ | ⟨he, -⟩
  · have hfailed : (i.runOnce tables s).2.1.state = .failed (some tables) := by rw [hafter]
    refine ⟨fun _ => ⟨⟨index, name, cause, rfl⟩, hfailed, ?_⟩,
      fun hbinding => hbinding.elim⟩
    intro j hlater s'
    exact invoke_of_failed (hlater.state_of_failed hfailed)
  · exact ⟨fun h => absurd hbinding h, fun _ => hafter⟩
  · exact absurd he hbusy

/-! ## A count that goes up twice -/

/-- A variable that is counted up, and its value doubled. -/
def countThenDouble : Graph where
  name := "counted"
  tensors := [Graph.Sample.counter "total", Graph.Sample.scalar "out", Graph.Sample.scalar "double"]
  operators := [⟨"count", .accumulate, [some 0], [some 1]⟩,
    ⟨"double", .add, [some 1, some 1], [some 2]⟩]
  inputs := []
  outputs := [2]

/-- The interpreter of the two operators; the second one runs the kernel that is given. -/
def doubling (second : Kernel Unit) : Interpreter Unit Unit where
  graph := ⟨countThenDouble, rfl⟩
  kernels := [SampleKernel.accumulate id, second]
  strategy := .linear

/-- It is allocated in a small arena. -/
def doublingStart (second : Kernel Unit) : Interpreter Unit Unit × Site Unit Unit :=
  ((doubling second).allocate (.ofBuffer 0 (.replicate 192 0) () ())).2

/-- The holder of the store writes over the end of the arena, where the row of the second operator
is. -/
def doublingDamaged : Interpreter Unit Unit × Site Unit Unit :=
  let start := doublingStart (Elementwise.kernel .add id)
  (start.1, start.2.mapMemory fun m => m.write 176 (.replicate 16 255))

/-- The interpreter and its site after so many invocations, whatever they answer. -/
def doublingAfter (n : Nat) : Interpreter Unit Unit × Site Unit Unit :=
  n.repeat (fun b => (b.1.invoke b.2).2) doublingDamaged

/-- The variable after so many invocations. -/
def doublingTotal (n : Nat) : Option Bytes :=
  ((doublingAfter n).1.tensor (doublingAfter n).2 0).toOption.map fun h => h.slice.bytes

/-- With a damaged row the first invocation counts the variable up and fails at the second operator.
The interpreter is still allocated, and the second invocation counts the variable up again. -/
theorem binding_error_repeats :
    (doublingDamaged.1.invoke doublingDamaged.2).1 =
        .error (.memory (.outOfBounds 34359738360 8 192)) ∧
      doublingDamaged.1.state = .allocated ⟨160, 128, 0⟩ ∧
      (doublingAfter 1).1.state = .allocated ⟨160, 128, 0⟩ ∧
      doublingTotal 1 = some [1, 0, 0, 0] ∧ doublingTotal 2 = some [2, 0, 0, 0] := by
  decide +kernel

/-- A kernel that reports an error. -/
def halt : Kernel Unit where
  invoke := throw (.failed "halt")

/-- A kernel that fails where the other one is not bound ends the interpreter. -/
theorem invoke_error_final_of_halt :
    (doublingStart halt).1.state = .allocated ⟨160, 128, 0⟩ ∧
      ((doublingStart halt).1.invoke (doublingStart halt).2).1 =
        .error (.kernel 1 "double" (.failed "halt")) ∧
      ((doublingStart halt).1.invoke (doublingStart halt).2).2.1.state =
        .failed (some ⟨160, 128, 0⟩) := by
  have hstate : (doublingStart halt).1.state = .allocated ⟨160, 128, 0⟩ := by decide +kernel
  have herror : ((doublingStart halt).1.invoke (doublingStart halt).2).1 =
      .error (.kernel 1 "double" (.failed "halt")) := by decide +kernel
  have hfinal := invoke_error_final hstate (doublingStart halt).2 herror nofun
  exact ⟨hstate, herror, (hfinal.1 fun hbinding => hbinding.elim).2.1⟩

end Interpreter

end TensorArena
