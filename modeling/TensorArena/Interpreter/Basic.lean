import TensorArena.Interpreter.Commit
import TensorArena.Profile.Basic

/-!
# Interpreters

An interpreter runs one checked graph out of a store. It is created with one kernel per operator,
allocated once, and dropped in the end, when every kernel is freed:

    created ── allocate ──▶ allocated ── invoke ──▶ allocated ── invoke ──▶ …
    created or allocated ── an allocation or a kernel fails ──▶ failed

The failed state is final. An interpreter that failed after it was allocated still knows its
tables.
-/

namespace TensorArena

/-- How far an interpreter has come. -/
inductive Lifecycle where
  | created
  | allocated (tables : Tables)
  | failed (tables : Option Tables)
  deriving DecidableEq, Repr

namespace Lifecycle

def text : Lifecycle → String
  | created => "created"
  | allocated _ => "allocated"
  | failed _ => "failed"

def debugText : Lifecycle → String
  | created => "Created"
  | allocated _ => "Allocated"
  | failed _ => "Failed"

end Lifecycle

/-- An interpreter. -/
structure Interpreter (σ π : Type) where
  graph : CheckedGraph
  kernels : List (Kernel σ)
  strategy : Strategy := .firstFit
  profiler : Option (Profiler π) := none
  profiling : Bool := true
  context : Option Int := none
  state : Lifecycle := .created

/-- Frees kernels in order. -/
def freeAll (kernels : List (Kernel σ)) (outside : σ) : σ :=
  kernels.foldl (fun outside k => k.free outside) outside

namespace Interpreter

/-- The factory of an operator's kernel. -/
def factoryOf (resolver : Resolver σ) (op : Operator) : Except SetupError (Factory σ) :=
  let count := max op.inputs.length op.outputs.length
  if maxOperands < count then .error (.tooManyOperands op.name count maxOperands)
  else
    match resolver op.code with
    | some factory => .ok factory
    | none => .error (.unresolvedOperator op.name op.code)

/-- Makes the kernels of operators in order. When an operator has none, the kernels made before are
freed. -/
def resolve (resolver : Resolver σ) (made : List (Kernel σ)) :
    List Operator → σ → Except SetupError (List (Kernel σ)) × σ
  | [], outside => (.ok made, outside)
  | op :: rest, outside =>
    match factoryOf resolver op with
    | .error e => (.error e, freeAll made outside)
    | .ok factory =>
      let (k, outside) := factory outside
      resolve resolver (made ++ [k]) rest outside

/-- Creates an interpreter of a graph. -/
def create (g : CheckedGraph) (resolver : Resolver σ) (s : Site σ π) :
    Except SetupError (Interpreter σ π) × Site σ π :=
  match resolve resolver [] g.operators s.outside with
  | (.error e, outside) => (.error e, { s with outside })
  | (.ok kernels, outside) =>
    (.ok { graph := g, kernels },
      { s with outside }.note .info
        (s!"interpreter created for '{g.name}' ({g.operators.length} operators, " ++
          s!"{g.tensors.length} tensors)"))

/-- Ends an interpreter: its kernels are freed. -/
def drop (i : Interpreter σ π) (s : Site σ π) : Site σ π :=
  { s with outside := freeAll i.kernels s.outside }.note .debug
    s!"interpreter for '{i.graph.name}' dropped ({i.state.text})"

/-- Leaves a value for kernels to read; only the first one is taken. -/
def setContext (i : Interpreter σ π) (value : Int) (s : Site σ π) :
    Except ContextError Unit × Interpreter σ π × Site σ π :=
  match i.context with
  | none => (.ok (), { i with context := some value }, s)
  | some _ =>
    (.error .alreadySet, i, s.note .warn s!"external context for '{i.graph.name}' is already set")

/-- Allocates everything that the graph needs. Once that is done, nothing happens again. -/
def allocate (i : Interpreter σ π) (s : Site σ π) :
    Except AllocationError Unit × Interpreter σ π × Site σ π :=
  match i.state with
  | .allocated _ => (.ok (), i, s)
  | .failed _ => (.error .failed, i, s)
  | .created =>
    -- A store that is held is no failure: the pass can be tried again.
    if s.hold ≠ .free then (.error .busy, i, s)
    else
      match (Pass.commit i.graph.toGraph i.kernels i.strategy).run.run s with
      | (.ok tables, s) =>
        (.ok (), { i with state := .allocated tables },
          s.note .info (s!"'{i.graph.name}' allocated: {s.store.used} of {s.store.capacity} " ++
            s!"arena bytes used (head {s.store.headUsed}, tail {s.store.tailUsed})"))
      | (.error e, s) =>
        (.error e, { i with state := .failed none },
          s.note .error s!"allocation for '{i.graph.name}' failed: {e.message}")

end Interpreter

end TensorArena
