import TensorArena.Interpreter.Basic
import TensorArena.Interpreter.Binding

/-!
# Invocation

Runs every operator once, in the order of the graph. Each one is bound, run between the two calls of
the profiler, and has its writes put back before the next one is bound. The first failure stops the
run; only the failure of a kernel ends the interpreter.
-/

namespace TensorArena

namespace Pass

/-- Tells the profiler that an operator starts. A profiler in use is not called; that leaves a
warning, and so does a call that fails. -/
def startEvent (profiler : Option (Profiler π)) (tag : String) : Pass σ π ε (Option Nat) :=
  match profiler with
  | none => pure none
  | some p => do
    let s ← get
    if p.inUse s.profile then
      note .warn s!"profiler busy, '{tag}' not profiled"
      pure none
    else
      match ← modifyGet (Site.profiled (p.start tag)) with
      | .ok event => pure (some event)
      | .error e =>
        note .warn s!"profiler begin for '{tag}' failed: {e.message}"
        pure none

/-- Tells the profiler that the operator of an event has run, unless it is in use. -/
def stopEvent (profiler : Option (Profiler π)) (event : Option Nat) : Pass σ π ε Unit :=
  match profiler, event with
  | some p, some event => do
    let s ← get
    if p.inUse s.profile then note .warn s!"profiler busy, event {event} not closed"
    else
      match ← modifyGet (Site.profiled (p.stop event)) with
      | .ok () => pure ()
      | .error e => note .warn s!"profiler end failed: {e.message}"
  | _, _ => pure ()

/-- Runs a kernel on its operands and puts back what it wrote. -/
def runKernel (k : Kernel σ) (operands : Operands) : Pass σ π ε (Except KernelError Unit) :=
  ExceptT.mk fun s =>
    match k.invoke.run (operands, s.outside) with
    | (outcome, after, outside) =>
      (.ok outcome, { s with outside }.mapMemory fun m => m.writeBack operands after)

/-- Reads the row of an operator and binds its operands. -/
def bindOperator (g : Graph) (op : Operator) (tables : Tables) (index : Nat)
    (context : Option Int) : Pass σ π ExecutionError Operands := do
  let s ← get
  let row ← liftExcept
    ((s.store.memory.readRow OpRow.layout tables.operators index).mapError ExecutionError.memory)
  liftExcept (s.store.memory.bind g op tables row context)

/-- Runs one operator. -/
def runOperator (g : Graph) (profiler : Option (Profiler π)) (context : Option Int)
    (tables : Tables) (index : Nat) (op : Operator) (k : Kernel σ) :
    Pass σ π ExecutionError Unit := do
  let operands ← bindOperator g op tables index context
  let event ← startEvent profiler op.name
  let outcome ← runKernel k operands
  stopEvent profiler event
  match outcome with
  | .ok () => pure ()
  | .error cause => throw (.kernel index op.name cause)

/-- Runs operators in order; `index` counts them. -/
def runAll (g : Graph) (profiler : Option (Profiler π)) (context : Option Int) (tables : Tables) :
    List (Operator × Kernel σ) → (index : Nat) → Pass σ π ExecutionError Unit
  | [], _ => pure ()
  | (op, k) :: rest, index => do
    runOperator g profiler context tables index op k
    runAll g profiler context tables rest (index + 1)

end Pass

namespace Interpreter

/-- The profiler, unless profiling is switched off. -/
def activeProfiler (i : Interpreter σ π) : Option (Profiler π) :=
  if i.profiling then i.profiler else none

/-- Runs the operators of an interpreter that is allocated with the given tables. -/
def runOnce (i : Interpreter σ π) (tables : Tables) (s : Site σ π) :
    Except ExecutionError Unit × Interpreter σ π × Site σ π :=
  if s.hold ≠ .free then (.error .busy, i, s)
  else
    match (Pass.runAll i.graph.toGraph i.activeProfiler i.context tables
      (i.graph.operators.zip i.kernels) 0).run.run s with
    -- Only the error of a kernel ends the interpreter; with any other it stays as it was.
    | (.error (.kernel index operator cause), s) =>
      let e := ExecutionError.kernel index operator cause
      (.error e, { i with state := .failed (some tables) },
        s.note .error s!"'{i.graph.name}' {e.message}")
    | (outcome, s) => (outcome, i, s)

/-- Runs every operator once; an interpreter that is only created is allocated first. -/
def invoke (i : Interpreter σ π) (s : Site σ π) :
    Except ExecutionError Unit × Interpreter σ π × Site σ π :=
  match i.state with
  | .failed _ => (.error .failed, i, s)
  | .allocated tables => i.runOnce tables s
  | .created =>
    match i.allocate s with
    | (.error e, i, s) => (.error (.allocation e), i, s)
    | (.ok (), i, s) =>
      match i.state with
      | .allocated tables => i.runOnce tables s
      | _ => (.error .failed, i, s)

end Interpreter

end TensorArena
