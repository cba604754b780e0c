import TensorArena.Arena.Ledger

/-!
# Stores

What interpreters allocate from: a plain arena, or one with a recorder. Both answer every request
alike; only the ledger tells them apart.
-/

namespace TensorArena

/-- An arena, plain or recorded. -/
inductive Store where
  | plain (arena : Arena)
  | recorded (recorder : Recorder)

namespace Store

def arena : Store → Arena
  | plain a => a
  | recorded r => r.arena

/-- Asks one end of the arena for a block on behalf of a category. -/
def allocate (s : Store) (region : Region) (size align : Nat) (category : Category) :
    Except MemoryError Nat × Store :=
  match s with
  | plain a =>
    match a.allocate region size align with
    | .ok (offset, a) => (.ok offset, plain a)
    | .error e => (.error e, plain a)
  | recorded r =>
    let (answer, r) := r.allocate region size align category
    (answer, recorded r)

/-- What a refused request leaves in the log: a recorder notes it, a plain arena is silent. -/
def refusal (s : Store) (category : Category) (size : Nat) (e : MemoryError) : Log :=
  match s with
  | plain _ => []
  | recorded _ => [Recorder.refusal category size e]

def resetHead (s : Store) : Store :=
  match s with
  | plain a => plain a.resetHead
  | recorded r => recorded { r with arena := r.arena.resetHead }

def memory (s : Store) : Memory :=
  s.arena.memory

/-- The store with the bytes of its arena changed. -/
def mapMemory (f : Memory → Memory) : Store → Store
  | plain ⟨m, head, watermark, tail⟩ => plain ⟨f m, head, watermark, tail⟩
  | recorded ⟨⟨m, head, watermark, tail⟩, ledger, failed⟩ =>
    recorded ⟨⟨f m, head, watermark, tail⟩, ledger, failed⟩

def capacity (s : Store) : Nat :=
  s.arena.capacity

def headUsed (s : Store) : Nat :=
  s.arena.headUsed

def tailUsed (s : Store) : Nat :=
  s.arena.tailUsed

def used (s : Store) : Nat :=
  s.arena.used

end Store

end TensorArena
