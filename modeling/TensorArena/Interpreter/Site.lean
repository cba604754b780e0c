import TensorArena.Arena.Store
import TensorArena.Interpreter.Kernel
import TensorArena.Interpreter.Record

/-!
# Where an interpreter works

A site is all that an interpreter acts on and does not own: the store, which other interpreters may
share; whether somebody holds the store at the moment; the values that kernels keep outside the
arena; the state of the profiler; and the log. It also keeps the history of the blocks that the store
granted. No step reads the history: it is there to say which bytes belong to whom.

A pass is a run of steps on a site. It may fail, and what it did before it failed stays done.
-/

namespace TensorArena

/-- Whether somebody else holds the store: nobody, readers only, or a writer. -/
inductive Hold where
  | free
  | shared
  | exclusive
  deriving DecidableEq, Repr

/-- What interpreters act on. -/
structure Site (σ π : Type) where
  store : Store
  hold : Hold := .free
  outside : σ
  profile : π
  log : Log := []
  /-- The blocks that the store granted, newest first. -/
  granted : List Block := []

/-- Steps on a site. -/
abbrev Pass (σ π ε α : Type) := ExceptT ε (StateM (Site σ π)) α

namespace Site

def note (s : Site σ π) (level : Level) (text : String) : Site σ π :=
  { s with log := s.log ++ [⟨level, text⟩] }

def rewind (s : Site σ π) : Site σ π :=
  { s with store := s.store.resetHead }

/-- The site with the bytes of its arena changed. -/
def mapMemory (f : Memory → Memory) : Site σ π → Site σ π
  | ⟨store, hold, outside, profile, log, granted⟩ =>
    ⟨store.mapMemory f, hold, outside, profile, log, granted⟩

def profiled (f : π → α × π) : Site σ π → α × Site σ π
  | ⟨store, hold, outside, profile, log, granted⟩ =>
    let (answer, profile) := f profile
    (answer, ⟨store, hold, outside, profile, log, granted⟩)

/-- Asks the store for a block; a recorder notes in the log what it refuses. -/
def request (s : Site σ π) (region : Region) (size align : Nat) (category : Category) :
    Except MemoryError Nat × Site σ π :=
  match s.store.allocate region size align category with
  -- What was granted stays on the list, whether or not the head is rewound.
  | (.ok offset, store) =>
    (.ok offset, { s with store, granted := ⟨region, ⟨offset, size⟩, align⟩ :: s.granted })
  | (.error e, store) => (.error e, { s with store, log := s.log ++ store.refusal category size e })

/-- Asks the store for a block at the alignment of the arena. -/
def allocate (s : Site σ π) (region : Region) (size : Nat) (category : Category) :
    Except MemoryError Nat × Site σ π :=
  s.request region size arenaAlignment category

end Site

namespace Pass

def note (level : Level) (text : String) : Pass σ π ε Unit :=
  modify fun s => s.note level text

def reserve (region : Region) (size : Nat) (category : Category) :
    Pass σ π AllocationError Nat :=
  ExceptT.mk fun s =>
    match s.allocate region size category with
    | (.ok offset, s) => (.ok offset, s)
    | (.error e, s) => (.error (.arena category e), s)

/-- Replaces the bytes of the arena, if that is possible. -/
def changeMemory (f : Memory → Except ε Memory) : Pass σ π ε Unit :=
  ExceptT.mk fun s =>
    match f s.store.memory with
    | .ok m => (.ok (), s.mapMemory fun _ => m)
    | .error e => (.error e, s)

end Pass

end TensorArena
