import TensorArena.Arena.Basic
import TensorArena.Json.Basic
import TensorArena.Log
import TensorArena.Text.Basic

/-!
# The ledger of an arena

A recorder answers requests exactly as its arena does and keeps a tally per category: the bytes
asked for, the bytes that the position of the end moved by, and the number of requests that
succeeded. It reserves a block at the tail for its own counters, as if they lived in the arena.
-/

namespace TensorArena

/-- What an allocation is for. -/
inductive Category where
  | evalTensorData
  | variableBufferData
  | opData
  | scratchBufferRequests
  | allocatorInternal
  deriving DecidableEq, Repr

namespace Category

def all : List Category :=
  [evalTensorData, variableBufferData, opData, scratchBufferRequests, allocatorInternal]

def label : Category → String
  | evalTensorData => "eval tensor data"
  | variableBufferData => "variable buffer data"
  | opData => "op data"
  | scratchBufferRequests => "scratch buffer requests"
  | allocatorInternal => "allocator internal"

end Category

/-- Totals of one category. -/
structure Tally where
  requested : Nat := 0
  used : Nat := 0
  count : Nat := 0
  deriving DecidableEq, Repr

namespace Tally

/-- Counts a request. The totals have no bound; kept in words they would overflow at 2 ^ 64. -/
def add (t : Tally) (requested used : Nat) : Tally :=
  ⟨t.requested + requested, t.used + used, t.count + 1⟩

def debugText (t : Tally) : String :=
  s!"RecordedAllocation \x7b requested_bytes: {t.requested}, used_bytes: {t.used}, " ++
    s!"count: {t.count} \x7d"

def toJson (t : Tally) : Json :=
  .record [("requested_bytes", .nat t.requested), ("used_bytes", .nat t.used),
    ("count", .nat t.count)]

end Tally

/-- One tally per category. -/
structure Ledger where
  evalTensorData : Tally := {}
  variableBufferData : Tally := {}
  opData : Tally := {}
  scratchBufferRequests : Tally := {}
  allocatorInternal : Tally := {}
  deriving DecidableEq, Repr

namespace Ledger

def get (l : Ledger) : Category → Tally
  | .evalTensorData => l.evalTensorData
  | .variableBufferData => l.variableBufferData
  | .opData => l.opData
  | .scratchBufferRequests => l.scratchBufferRequests
  | .allocatorInternal => l.allocatorInternal

/-- The ledger with other totals for a category. -/
def set (l : Ledger) (c : Category) (t : Tally) : Ledger :=
  match c with
  | .evalTensorData => { l with evalTensorData := t }
  | .variableBufferData => { l with variableBufferData := t }
  | .opData => { l with opData := t }
  | .scratchBufferRequests => { l with scratchBufferRequests := t }
  | .allocatorInternal => { l with allocatorInternal := t }

theorem get_set (l : Ledger) (c c' : Category) (t : Tally) :
    (l.set c t).get c' = if c' = c then t else l.get c' := by
  cases c <;> cases c' <;> rfl

def enter (l : Ledger) (c : Category) (requested used : Nat) : Ledger :=
  l.set c ((l.get c).add requested used)

end Ledger

/-- An arena with its ledger and the number of requests it refused. -/
structure Recorder where
  arena : Arena
  ledger : Ledger := {}
  failed : Nat := 0

namespace Recorder

/-- The bytes reserved for the counters themselves: three words per category. -/
def bookkeepingBytes : Nat :=
  Category.all.length * 24

/-- The position that a request at this end moves. -/
def position (a : Arena) : Region → Nat
  | .head => a.head
  | .tail => a.tail

/-- Passes a request on to the arena and enters it in the ledger. -/
def allocate (r : Recorder) (region : Region) (size align : Nat) (category : Category) :
    Except MemoryError Nat × Recorder :=
  match r.arena.allocate region size align with
  | .error e => (.error e, { r with failed := r.failed + 1 })
  | .ok (offset, arena) =>
    let before := position r.arena region
    let after := position arena region
    -- One of the two differences is zero: the head moves up and the tail moves down.
    (.ok offset,
      { r with
        arena
        ledger := r.ledger.enter category size ((after - before) + (before - after)) })

/-- The line that a refused request leaves in the log. -/
def refusal (category : Category) (size : Nat) (e : MemoryError) : LogLine :=
  ⟨.debug, s!"[{category.label}] request of {size} bytes failed: {e.message}"⟩

/-- A recorder over a fresh arena, with its own block reserved; refused where the arena has no room
for that block. -/
def create (arena : Arena) : Log × Except MemoryError Recorder :=
  match allocate { arena } .tail bookkeepingBytes arenaAlignment .allocatorInternal with
  | (.ok _, r) => ([], .ok r)
  | (.error e, _) => ([refusal .allocatorInternal bookkeepingBytes e], .error e)

/-- The usage of the arena and of every category, as log lines. -/
def report (r : Recorder) : Log :=
  let a := r.arena
  ⟨.info, s!"arena: {a.used} used ({a.headUsed} head, {a.tailUsed} tail) of {a.capacity} bytes"⟩ ::
    Category.all.map fun c =>
      let t := r.ledger.get c
      ⟨.info, s!"[{c.label}] {t.used} bytes ({t.requested} requested) in {t.count} allocations"⟩

/-- The usage of the arena and of every category, as the lines of a table. -/
def summaryLines (r : Recorder) : List String :=
  let a := r.arena
  (s!"Arena: {a.used} / {a.capacity} bytes used ({a.headUsed} head, {a.tailUsed} tail), " ++
      s!"{r.failed} failed requests") ::
    Category.all.map fun c =>
      let t := r.ledger.get c
      s!"  {Text.padRight 24 c.label} {Text.padNat 8 t.used} used " ++
        s!"{Text.padNat 8 t.requested} requested {Text.padNat 4 t.count} allocs"

def summary (r : Recorder) : String :=
  "\n".intercalate r.summaryLines

def debugText (r : Recorder) : String :=
  let records := ", ".intercalate (Category.all.map fun c => (r.ledger.get c).debugText)
  s!"RecordingArena \x7b arena: {r.arena.debugText}, records: [{records}], " ++
    s!"failed_requests: {r.failed} \x7d"

end Recorder

end TensorArena
