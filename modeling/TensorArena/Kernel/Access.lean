import TensorArena.Interpreter.Kernel

/-!
# What a running kernel does

The steps that kernels are written in: reading elements of operands, writing them, and giving up.
-/

namespace TensorArena.KernelM

def look (f : Operands → Except KernelError α) : KernelM σ α := do
  liftExcept (f (← get).1)

def change (f : Operands → Operands) : KernelM σ Unit :=
  modify fun (o, outside) => (f o, outside)

def changeOutside (f : σ → σ) : KernelM σ Unit :=
  modify fun (o, outside) => (o, f outside)

def elements (v : View) (d : DType) : KernelM σ (List Nat) :=
  liftExcept ((v.elements d).mapError KernelError.tensor)

def first (v : View) (d : DType) : KernelM σ Nat := do
  match ← elements v d with
  | w :: _ => pure w
  | [] => throw (.tensor (.sizeMismatch d.size 0))

def fillOutput (i : Nat) (v : View) (d : DType) (w : Nat) : KernelM σ Unit := do
  let _ ← elements v d
  change fun o => o.setOutput i (v.slice.fill d.size w)

/-- Sets the leading elements of an output. -/
def storeOutput (i : Nat) (v : View) (d : DType) (ws : List Nat) : KernelM σ Unit := do
  let _ ← elements v d
  change fun o => o.setOutput i (v.slice.store d.size ws)

end TensorArena.KernelM
