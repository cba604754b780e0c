import TensorArena.Interpreter.Site
import TensorArena.Plan.Liveness

/-!
# The allocation pass

Reserves everything that a graph needs, in this order:

1. the head is rewound;
2. the operator table;
3. every kernel is prepared, in the order of the operators, and gets its persistent data;
4. the tensor table;
5. the variables, each in a block of its own, and zeroed;
6. one block for all activations, as large as the peak of their plan;
7. the scratch table, and one block at the head for all scratch blocks, as large as the peak of
   their plan.

The tables are written at the end. The pass stops at the first step that fails.
-/

namespace TensorArena

/-- What a kernel was granted: the sizes of its scratch blocks, and the range of its persistent
data. -/
structure Grant where
  scratch : List Nat := []
  userData : Option ByteRange := none
  deriving DecidableEq, Repr

/-- Walks the requests of a kernel. -/
def Preparation.run : Preparation σ → Grant → Site σ π → Except KernelError Grant × Site σ π
  | .done, g, s => (.ok g, s)
  | .fail e, _, s => (.error e, s)
  | .scratch size granted refused, g, s =>
    if g.scratch.length = maxScratch then (refused (.tooManyScratch maxScratch)).run g s
    else (granted g.scratch.length).run { g with scratch := g.scratch ++ [size] } s
  | .persistent size fill granted refused, g, s =>
    if g.userData.isSome then (refused .persistentTwice).run g s
    else
      match s.allocate .tail size .opData with
      -- The kernel may go on after a refusal, and may even succeed.
      | (.error e, s) => (refused (.memory e)).run g s
      | (.ok offset, s) =>
        let g := { g with userData := some ⟨offset, size⟩ }
        match s.store.memory.read? offset size with
        | none => (refused (.memory (.outOfBounds offset size s.store.capacity))).run g s
        | some before =>
          (granted before).run g (s.mapMemory fun m => m.write offset ((fill before).take size))
  | .outside change next, g, s => (next s.outside).run g { s with outside := change s.outside }

/-- The error of the pass for an error of a kernel: a refused request counts as the pass's own. -/
def AllocationError.ofPrepare (operator : String) : KernelError → AllocationError
  | .memory cause => .arena .opData cause
  | cause => .prepare operator cause

namespace Pass

/-- Prepares one kernel. -/
def prepare (g : Graph) (op : Operator) (k : Kernel σ) : Pass σ π AllocationError Grant :=
  ExceptT.mk fun s =>
    match (k.prepare (.of g op)).run {} s with
    | (.ok grant, s) => (.ok grant, s)
    | (.error e, s) => (.error (.ofPrepare op.name e), s)

/-- The span of persistent data. -/
def userSpan : Option ByteRange → Except AllocationError Span
  | some r => Span.make r.offset r.length
  | none => .ok .unplaced

/-- Prepares kernels in order; gives their rows and the lifetimes of their scratch blocks. `index`
counts operators and `first` rows of the scratch table. -/
def prepareAll (g : Graph) :
    List (Operator × Kernel σ) → (index first : Nat) →
      Pass σ π AllocationError (List OpRow × List Lifetime)
  | [], _, _ => pure ([], [])
  | (op, k) :: rest, index, first => do
    let grant ← prepare g op k
    let userData ← liftExcept (userSpan grant.userData)
    let count := grant.scratch.length
    let (rows, lifetimes) ← prepareAll g rest (index + 1) (first + count)
    -- Numbers of rows are cut off to 32 bits without a check.
    pure (⟨userData, UInt32.ofNat first, UInt32.ofNat count⟩ :: rows,
      grant.scratch.zipIdx.map (fun (size, k) => Lifetime.scratch index k size) ++ lifetimes)

/-- Gives a variable its zeroed block; other tensors get no span here. -/
def reserveVariable (t : Tensor) : Pass σ π AllocationError Span := do
  if t.isVariable then
    let offset ← reserve .tail t.size .variableBufferData
    modify fun s => s.mapMemory fun m => m.write offset (List.replicate t.size 0)
    liftExcept (Span.make offset t.size)
  else pure .unplaced

def plan (strategy : Strategy) (lifetimes : List Lifetime) (room : Nat) :
    Pass σ π AllocationError Plan := do
  let placed := strategy.place lifetimes arenaAlignment room
  let p ← liftExcept (placed.mapError AllocationError.planner)
  if strategy.announces then note .debug p.summary
  pure p

/-- The span of a placement in a block that starts at `base`. -/
def placedSpan (base : Nat) (p : Placement) : Except AllocationError Span :=
  Span.make (base + p.offset) p.lifetime.size

/-- Enters the spans of placed tensors. -/
def enterSpans (base : Nat) (spans : List Span) :
    List Placement → Except AllocationError (List Span)
  | [] => .ok spans
  | p :: rest =>
    match p.lifetime.buffer with
    | .scratch .. => enterSpans base spans rest
    | .tensor id =>
      match placedSpan base p with
      | .ok span => enterSpans base (spans.set id span) rest
      | .error e => .error e

/-- Places the activations in one block at the tail. -/
def placeActivations (g : Graph) (strategy : Strategy) (spans : List Span) :
    Pass σ π AllocationError (List Span) := do
  let s ← get
  let p ← plan strategy g.lifetimes (s.store.capacity - s.store.used)
  -- A plan without bytes takes no block, and its spans lie at the start of the arena.
  let base ← if 0 < p.peak then reserve .tail p.peak .evalTensorData else pure 0
  let spans ← liftExcept (enterSpans base spans p.placements)
  note .debug s!"'{g.name}' activations: {p.summary}"
  pure spans

/-- Writes a table of the interpreter. -/
def commitTable (layout : Layout α) (table : Nat) (rows : List α) :
    Pass σ π AllocationError Unit :=
  changeMemory fun m => (m.writeTable layout table rows).mapError (.arena .allocatorInternal)

/-- Places the scratch blocks in one block at the head, which was rewound and so may take the bytes
of an earlier pass again; gives the scratch table. -/
def placeScratch (g : Graph) (strategy : Strategy) (lifetimes : List Lifetime) :
    Pass σ π AllocationError Nat := do
  if lifetimes.isEmpty then pure 0
  else
    let table ← reserve .tail (lifetimes.length * Span.layout.size) .scratchBufferRequests
    let s ← get
    -- Unlike for activations, bytes below the watermark count as free.
    let p ← plan strategy lifetimes (s.store.capacity - s.store.tailUsed)
    let base ← reserve .head p.peak .scratchBufferRequests
    let rows ← liftExcept (p.placements.mapM (placedSpan base))
    commitTable Span.layout table rows
    note .debug s!"'{g.name}' scratch: {p.summary}"
    pure table

/-- The whole pass; gives the places of the tables. -/
def commit (g : Graph) (kernels : List (Kernel σ)) (strategy : Strategy) :
    Pass σ π AllocationError Tables := do
  modify Site.rewind
  let operators ← reserve .tail (g.operators.length * OpRow.layout.size) .allocatorInternal
  let (rows, lifetimes) ← prepareAll g (g.operators.zip kernels) 0 0
  let tensors ← reserve .tail (g.tensors.length * Span.layout.size) .evalTensorData
  let spans ← g.tensors.mapM reserveVariable
  let spans ← placeActivations g strategy spans
  let scratch ← placeScratch g strategy lifetimes
  -- These blocks were reserved first; they are filled now that all spans are known.
  commitTable OpRow.layout operators rows
  commitTable Span.layout tensors spans
  pure ⟨operators, tensors, scratch⟩

end Pass

end TensorArena
