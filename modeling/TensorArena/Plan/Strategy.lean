import TensorArena.Plan.Basic

/-!
# Placement strategies

Two ways to place buffers. *First fit* places the largest buffers first, each at the lowest offset
where it meets no placed buffer that is alive together with it; buffers that are never alive
together are the ones that share bytes. *Linear* lays the buffers out one after another. Both refuse
an alignment that is no power of two, a lifetime that ends before it starts, and a block that is
larger than the capacity. Ends are cut off at the largest word.
-/

namespace TensorArena

/-- What every strategy asks of its input. -/
def checkLifetimes (lifetimes : List Lifetime) (align : Nat) : Except PlanError Unit :=
  if ¬ IsPowerOfTwo align then .error (.invalidAlignment align)
  else
    match lifetimes.find? fun l => l.last < l.first with
    | some l => .error (.invalidLifetime l.buffer l.first l.last)
    | none => .ok ()

/-- The plan, unless its block is larger than the capacity. -/
def Plan.within (p : Plan) (capacity : Nat) : Except PlanError Plan :=
  if capacity < p.peak then .error (.exceedsCapacity p.strategy p.peak capacity) else .ok p

/-! ## First fit -/

namespace FirstFit

/-- A placed buffer: its position in the input, its offset, and the end of the bytes reserved for
it. -/
structure Spot where
  index : Nat
  lifetime : Lifetime
  start : Nat
  stop : Nat
  deriving DecidableEq, Repr

/-- The order of placement: size downward, then first operator, then buffer. -/
def before (a b : Lifetime) : Bool :=
  if a.size ≠ b.size then b.size < a.size
  else if a.first ≠ b.first then a.first < b.first
  else a.buffer.le b.buffer

/-- The lowest offset, not below `offset`, where `reserved` bytes meet no spot that is alive
together with `l`; the spots are given by offset. -/
def gap (l : Lifetime) (reserved : Nat) : List Spot → (offset : Nat) → Nat
  | [], offset => offset
  | s :: rest, offset =>
    -- Empty spots are in nobody's way.
    if ¬ s.lifetime.Overlaps l ∨ s.stop = s.start then gap l reserved rest offset
    else if Word.addSat offset reserved ≤ s.start then offset
    -- The maximum, since a spot that is passed can end behind a later one.
    else gap l reserved rest (max offset s.stop)

/-- Puts a spot behind all spots that start no later. -/
def insert (s : Spot) : List Spot → List Spot
  | [] => [s]
  | t :: rest => if t.start ≤ s.start then t :: insert s rest else s :: t :: rest

/-- Places one buffer among the ones already placed. -/
def put (align : Nat) (placed : List Spot) (entry : Lifetime × Nat) : List Spot :=
  let (l, index) := entry
  let reserved := alignUp l.size align
  let start := if 0 < reserved then gap l reserved placed 0 else 0
  insert ⟨index, l, start, Word.addSat start reserved⟩ placed

/-- All buffers placed, in the order of their offsets. -/
def spots (lifetimes : List Lifetime) (align : Nat) : List Spot :=
  (lifetimes.zipIdx.mergeSort fun a b => before a.1 b.1).foldl (put align) []

/-- The offset of the buffer at a position of the input. -/
def offsetAt (placed : List Spot) (index : Nat) : Nat :=
  match placed.find? fun s => s.index = index with
  | some s => s.start
  | none => 0

def name : String := "greedy-first-fit"

/-- Places the buffers, whatever block that takes. -/
def plan (lifetimes : List Lifetime) (align : Nat) : Plan :=
  let placed := spots lifetimes align
  { strategy := name
    placements := lifetimes.zipIdx.map fun (l, index) => ⟨l, offsetAt placed index⟩
    peak := (placed.map (·.stop)).foldl max 0 }

/-- Places the buffers in a block of at most `capacity` bytes. -/
def place (lifetimes : List Lifetime) (align capacity : Nat) : Except PlanError Plan := do
  checkLifetimes lifetimes align
  (plan lifetimes align).within capacity

end FirstFit

/-! ## Linear -/

namespace Linear

/-- Lays buffers out from `cursor` on; gives the placements and the end of the last one. -/
def layOut (align : Nat) : List Lifetime → (cursor : Nat) → List Placement × Nat
  | [], cursor => ([], cursor)
  | l :: rest, cursor =>
    let (placements, stop) := layOut align rest (Word.addSat cursor (alignUp l.size align))
    (⟨l, cursor⟩ :: placements, stop)

def name : String := "linear"

/-- Places the buffers, whatever block that takes. -/
def plan (lifetimes : List Lifetime) (align : Nat) : Plan :=
  let (placements, peak) := layOut align lifetimes 0
  { strategy := name, placements, peak }

/-- Places the buffers in a block of at most `capacity` bytes. -/
def place (lifetimes : List Lifetime) (align capacity : Nat) : Except PlanError Plan := do
  checkLifetimes lifetimes align
  (plan lifetimes align).within capacity

end Linear

/-! ## Strategies by name -/

/-- A way to place buffers. It is a function of lifetimes, alignment and capacity alone. Some
strategies announce the plans they make in the log. -/
structure Strategy where
  name : String
  place : List Lifetime → (align capacity : Nat) → Except PlanError Plan
  announces : Bool := false

namespace Strategy

/-- First fit in size order; it announces its plans. -/
def firstFit : Strategy :=
  { name := FirstFit.name, place := FirstFit.place, announces := true }

/-- One after another. -/
def linear : Strategy :=
  { name := Linear.name, place := Linear.place }

/-- The strategy registered under a name, in any letter case. Only letters of ASCII occur in the
names, and no other letter has one of these as its lower case, so ASCII folding is exact. -/
def ofName (name : String) : Except PlanError Strategy :=
  match name.map Char.toLower with
  | "greedy-first-fit" | "greedy" => .ok firstFit
  | "linear" => .ok linear
  | _ => .error (.unknownStrategy name)

end Strategy

end TensorArena
