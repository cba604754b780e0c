import TensorArena.Kernel.Elementwise
import TensorArena.Kernel.Sample
import TensorArena.Log
import TensorArena.Text.Quoted

/-!
# Registries

Factories of kernels by operator code. A code has one factory at most; a later one replaces an
earlier one.
-/

namespace TensorArena

/-- Factories by code. -/
structure Registry (σ : Type) where
  entries : List (OpCode × Factory σ) := []

namespace Registry

def resolver (r : Registry σ) : Resolver σ :=
  fun code => (r.entries.find? fun e => e.1 = code).map (·.2)

def contains (r : Registry σ) (code : OpCode) : Bool :=
  r.entries.any fun e => e.1 = code

/-- The registry with one more factory; what it replaces is noted in the log. -/
def add (r : Registry σ) (code : OpCode) (factory : Factory σ) : Registry σ × Log :=
  (⟨(code, factory) :: r.entries.filter fun e => e.1 ≠ code⟩,
    if r.contains code then [⟨.debug, s!"kernel for '{code.label}' replaced"⟩] else [])

/-- The registry with factories added one after the other, and everything that the log notes. -/
def addAll (r : Registry σ) : List (OpCode × Factory σ) → Registry σ × Log
  | [] => (r, [])
  | (code, factory) :: rest =>
    let (added, noted) := r.add code factory
    let (all, log) := added.addAll rest
    (all, noted ++ log)

def size (r : Registry σ) : Nat :=
  r.entries.length

/-- Whether there is no code. -/
def isEmpty (r : Registry σ) : Bool :=
  r.entries.isEmpty

/-- The registry in diagnostics: the names of its codes in alphabetical order. -/
def debugText (r : Registry σ) : String :=
  let names := (r.entries.map (·.1.label)).mergeSort fun a b => decide (¬ b < a)
  let list := ", ".intercalate (names.map Text.quoted)
  s!"MutableOpResolver \x7b codes: [{list}] \x7d"

/-- The sample kernels and the elementwise ones; `free` is what each does when it is freed. -/
def samples (free : σ → σ) : Registry σ where
  entries := [
    (.mockCustom, .always (SampleKernel.mockCustom free)),
    (.simpleStateful, .always (SampleKernel.simpleStateful free)),
    (.multipleInputs, .always (SampleKernel.multipleInputs free)),
    (.noOp, .always (SampleKernel.noOp free)),
    (.accumulate, .always (SampleKernel.accumulate free)),
    (.add, .always (Elementwise.kernel .add free)),
    (.mul, .always (Elementwise.kernel .mul free))]

end Registry

end TensorArena
