import TensorArena.Command.Report
import TensorArena.Interpreter.Access
import TensorArena.Interpreter.Invoke
import TensorArena.Profile.Timing

/-!
# Running a model

A model is allocated, its inputs are filled with numbers once, it is invoked a number of times, and
the first elements of its outputs are shown. The interpreter and its site form a bench; the steps of
a run are functions on benches.
-/

namespace TensorArena

open Text

/-- An interpreter with its site, profiled by a timing. -/
structure Bench where
  interpreter : Interpreter Unit Timing
  site : Site Unit Timing

/-- Why a tensor of a bench cannot be read or written. -/
inductive BenchError where
  | access (cause : AccessError)
  | tensor (cause : TensorError)
  deriving DecidableEq, Repr

def BenchError.message : BenchError → String
  | access cause => cause.message
  | tensor cause => cause.message

namespace Bench

/-- Sets every element of an input to the element nearest to a number. -/
def fill (b : Bench) (index : Nat) (value : Binary) : Except BenchError Bench := do
  let h ← (b.interpreter.writableInput b.site index).mapError .access
  let h ← (h.fill (h.tensor.dtype.nearestWord value)).mapError .tensor
  pure { b with site := b.site.put h }

/-- Runs every operator once. -/
def invoke (b : Bench) : Except ExecutionError Unit × Bench :=
  let (result, interpreter, site) := b.interpreter.invoke b.site
  (result, ⟨interpreter, site⟩)

/-- Runs every operator so many times, up to the first failure. -/
def invokeTimes (b : Bench) : Nat → Except ExecutionError Unit × Bench
  | 0 => (.ok (), b)
  | n + 1 =>
    match b.invoke with
    | (.ok (), b) => b.invokeTimes n
    | (.error e, b) => (.error e, b)

def output (b : Bench) (index : Nat) : Except BenchError (Tensor × List Nat) := do
  let h ← (b.interpreter.output b.site index).mapError .access
  let elements ← (h.elements h.tensor.dtype).mapError .tensor
  pure (h.tensor, elements)

end Bench

/-- The number that an input is filled with: the one at its place, else the last one given, else
zero. -/
def inputValue (values : List Binary) (index : Nat) : Binary :=
  (values[index]? <|> values.getLast?).getD (Format.double.ofNat 0)

/-- The number of elements of an output that are shown. -/
def previewLength : Nat := 8

def DType.preview (d : DType) (elements : List Nat) : String :=
  let shown := ", ".intercalate ((elements.take previewLength).map d.elementText)
  s!"[{shown}" ++ (if previewLength < elements.length then ", ...]" else "]")

def outputLine (t : Tensor) (elements : List Nat) : String :=
  s!"   {padRight 24 (shorten 24 t.name)} {t.dtype.label}{t.shape.text} = " ++
    t.dtype.preview elements

namespace Report

/-- Fills the inputs from a place on. -/
def fillInputs (values : List Binary) (b : Bench) : (rest index : Nat) → Report Bench
  | 0, _ => pure b
  | rest + 1, index => do
    let value := inputValue values index
    let b ← need BenchError.message (b.fill index value)
    let id := b.interpreter.graph.inputs[index]?
    let name := (id.bind fun id => (b.interpreter.graph.tensors[id]?).map (·.name)).getD "?"
    say s!"        {shorten 32 name} = {value.text .double}"
    fillInputs values b rest (index + 1)

/-- The command that runs a model. What it measured is complete except for the time of the whole
run. -/
def run (files : Files) (path : String) (c : Config) (values : List Binary) (iterations : Nat) :
    Report Metrics := do
  heading "Graph Runner"
  let g ← model files path
  let size ← need ConfigError.message c.size
  sayAll ["  Config:", s!"   Model:      {path}", s!"   Arena:      {size.text}",
    s!"   Placement:  {c.placement}", s!"   Profiling:  {c.profiling}",
    s!"   Iterations: {iterations}", ""]
  let site : Site Unit Timing :=
    { store := .plain size.arena
      outside := ()
      profile := { most := g.operators.length * max iterations 1 } }
  let (i, site) ← interpreter g c site
  let i := { i with profiler := some (Timing.profiler 0) }
  say "  [1/3] Allocating tensors..."
  let (allocated, i, site) := i.allocate site
  let ((), site) ← perform AllocationError.message (allocated, site)
  let used := site.store.used
  sayAll [s!"        {used} of {size.bytes} bytes used.", "",
    s!"  [2/3] Filling {g.inputs.length} inputs..."]
  let b ← fillInputs values ⟨i, site⟩ g.inputs.length 0
  sayAll ["", "  [3/3] Invoking..."]
  let (invoked, b) := b.invokeTimes iterations
  let ((), site) ← perform ExecutionError.message (invoked, b.site)
  sayAll ["", "  Outputs:"]
  (List.range g.outputs.length).forM fun index => do
    let (tensor, elements) ← need BenchError.message (b.output index)
    say (outputLine tensor elements)
  say ""
  pure (site.profile.metrics.finalise 0 used iterations)

end Report

end TensorArena
