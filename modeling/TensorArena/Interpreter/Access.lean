import TensorArena.Interpreter.Basic
import TensorArena.Text.Quoted

/-!
# Tensors from outside

The owner of an interpreter reads and writes tensors between invocations. Tensors can be read as
long as the interpreter has tables, and written only while it is allocated. Constants are read from
the graph and never written.
-/

namespace TensorArena

/-- A tensor and its bytes. -/
structure Handle where
  tensor : Tensor
  slice : Slice
  deriving DecidableEq, Repr

namespace Handle

/-- The elements, if they are of the wanted type. -/
def elements (h : Handle) (wanted : DType) : Except TensorError (List Nat) :=
  h.slice.elements h.tensor.dtype wanted

def view (h : Handle) : Except TensorError View :=
  View.make h.tensor.shape h.tensor.dtype h.slice

/-- The handle with its leading elements replaced, if they are of the wanted type. -/
def store (h : Handle) (wanted : DType) (ws : List Nat) : Except TensorError Handle :=
  (h.elements wanted).map fun _ => { h with slice := h.slice.store wanted.size ws }

/-- The handle with every element replaced by one word of its type. -/
def fill (h : Handle) (w : Nat) : Except TensorError Handle :=
  (h.elements h.tensor.dtype).map fun _ => { h with slice := h.slice.fill h.tensor.dtype.size w }

/-- The handle in diagnostics, under the name of its kind. -/
def debugText (h : Handle) (kind : String) : String :=
  s!"{kind} \x7b tensor: {Text.quoted h.tensor.name}, bytes: {h.slice.bytes.length} \x7d"

end Handle

namespace Interpreter

/-- The tables that a reader or a writer of tensors may use. -/
def tablesFor (i : Interpreter σ π) (write : Bool) : Except AccessError Tables :=
  match i.state with
  | .allocated tables => .ok tables
  -- After a failed run tensors can still be read.
  | .failed (some tables) => if write then .error (.notAllocated i.state.text) else .ok tables
  | _ => .error (.notAllocated i.state.text)

/-- The declaration of a tensor and its span. -/
def locate (i : Interpreter σ π) (s : Site σ π) (id : Nat) (write : Bool) :
    Except AccessError (Tensor × Span) := do
  let tables ← i.tablesFor write
  match i.graph.tensors[id]? with
  | none => throw (.indexOutOfRange "tensor" id i.graph.tensors.length)
  | some t =>
    -- Readers do not disturb each other: only a writer keeps this one out.
    if s.hold = .exclusive then throw .busy
    let span ← (s.store.memory.readRow Span.layout tables.tensors id).mapError AccessError.memory
    pure (t, span)

def bytesOf (s : Site σ π) (span : Span) : Except AccessError Slice :=
  match s.store.memory.read? span.range.offset span.range.length with
  | some bytes => .ok ⟨span.range.offset, bytes⟩
  | none => .error (.memory (.outOfBounds span.range.offset span.range.length s.store.capacity))

/-- Any tensor, for reading. -/
def tensor (i : Interpreter σ π) (s : Site σ π) (id : Nat) : Except AccessError Handle := do
  let (t, span) ← i.locate s id false
  match t.data with
  | some data => pure ⟨t, ⟨0, data.toBytes⟩⟩
  | none =>
    if ¬ span.IsPlaced then throw (.noBuffer id)
    pure ⟨t, ← bytesOf s span⟩

/-- A tensor that is no constant, for writing. -/
def writableTensor (i : Interpreter σ π) (s : Site σ π) (id : Nat) :
    Except AccessError Handle := do
  let (t, span) ← i.locate s id true
  if t.data.isSome then throw (.readOnly id)
  if ¬ span.IsPlaced then throw (.noBuffer id)
  if s.hold ≠ .free then throw .busy
  pure ⟨t, ← bytesOf s span⟩

/-- The tensor number at a position of the graph's inputs or outputs. -/
def lookup (kind : String) (ids : List Nat) (index : Nat) : Except AccessError Nat :=
  match ids[index]? with
  | some id => .ok id
  | none => .error (.indexOutOfRange kind index ids.length)

/-- A graph input, for reading. -/
def input (i : Interpreter σ π) (s : Site σ π) (index : Nat) : Except AccessError Handle := do
  i.tensor s (← lookup "input" i.graph.inputs index)

/-- A graph input, for writing. -/
def writableInput (i : Interpreter σ π) (s : Site σ π) (index : Nat) :
    Except AccessError Handle := do
  i.writableTensor s (← lookup "input" i.graph.inputs index)

/-- A graph output, for reading. -/
def output (i : Interpreter σ π) (s : Site σ π) (index : Nat) : Except AccessError Handle := do
  i.tensor s (← lookup "output" i.graph.outputs index)

def usedBytes (s : Site σ π) : Except AccessError Nat :=
  if s.hold = .exclusive then .error .busy else .ok s.store.used

def debugText (i : Interpreter σ π) : String :=
  s!"Interpreter \x7b graph: {Text.quoted i.graph.name}, state: {i.state.debugText}, " ++
    s!"strategy: {Text.quoted i.strategy.name}, kernels: {i.kernels.length}, " ++
    s!"profiler: {i.profiler.isSome}, enable_profiling: {i.profiling} \x7d"

end Interpreter

/-- The site with the bytes of a writable tensor put into its arena. -/
def Site.put (s : Site σ π) (h : Handle) : Site σ π :=
  s.mapMemory fun m => m.write h.slice.address h.slice.bytes

end TensorArena
