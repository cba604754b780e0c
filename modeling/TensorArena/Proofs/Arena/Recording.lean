import TensorArena.Proofs.Arena.History
import TensorArena.Proofs.Interpreter.Since

/-!
# A recorder in place of an arena

A recorder keeps its ledger beside the arena and never lets it decide anything. Its holder asks it
for blocks under categories, rewinds it and writes into its buffer; the holder of an arena does the
same without categories. `Store.watch` and `Arena.watch` list what the two of them see after every
step, and the lists are equal.

The simulation is an equality: the arena inside the recorder is, after every step, the arena that
the same steps lead to on their own. `create_eq` gives its start, where the recorder has taken its
own block.
-/

namespace TensorArena

namespace Arena

/-- What the holder of an arena does with it. -/
inductive Use where
  | call (c : Call)
  | write (offset : Nat) (bytes : Bytes)
  deriving DecidableEq, Repr

/-- One step of the holder, with the answer that a request gets. -/
def use (a : Arena) : Use → Option (Except MemoryError Nat) × Arena
  | .call (.allocate region size align) =>
    match a.allocate region size align with
    | .ok (offset, a) => (some (.ok offset), a)
    | .error e => (some (.error e), a)
  | .call .resetHead => (none, a.resetHead)
  | .write offset bytes => (none, { a with memory := a.memory.write offset bytes })

end Arena

/-- What the holder sees after a step. -/
structure Observation where
  answer : Option (Except MemoryError Nat)
  capacity : Nat
  headUsed : Nat
  tailUsed : Nat
  bytes : Bytes

def Arena.observe (a : Arena) (answer : Option (Except MemoryError Nat)) : Observation :=
  ⟨answer, a.capacity, a.headUsed, a.tailUsed, a.memory.toBytes⟩

/-- What the holder of an arena sees after each step. -/
def Arena.watch (a : Arena) : List Use → List Observation
  | [] => []
  | u :: rest => (a.use u).2.observe (a.use u).1 :: (a.use u).2.watch rest

namespace Store

/-- One step of the holder of a store. Only a request has a use for the category. -/
def use (s : Store) (category : Category) :
    Arena.Use → Option (Except MemoryError Nat) × Store
  | .call (.allocate region size align) =>
    let (answer, s) := s.allocate region size align category
    (some answer, s)
  | .call .resetHead => (none, s.resetHead)
  | .write offset bytes => (none, s.mapMemory (·.write offset bytes))

def observe (s : Store) (answer : Option (Except MemoryError Nat)) : Observation :=
  ⟨answer, s.capacity, s.headUsed, s.tailUsed, s.memory.toBytes⟩

/-- What the holder of a store sees after each step, every step with its category. -/
def watch (s : Store) : List (Arena.Use × Category) → List Observation
  | [] => []
  | (u, category) :: rest =>
    (s.use category u).2.observe (s.use category u).1 :: (s.use category u).2.watch rest

/-! ## One step -/

theorem observe_arena (s : Store) (answer : Option (Except MemoryError Nat)) :
    s.observe answer = s.arena.observe answer :=
  rfl

/-- A store answers a request as its arena does, whatever the category. -/
theorem allocate_eq (s : Store) (region : Region) (size align : Nat) (category : Category) :
    (s.arena.use (.call (.allocate region size align))).1 =
        some (s.allocate region size align category).1 ∧
      (s.arena.use (.call (.allocate region size align))).2 =
        (s.allocate region size align category).2.arena := by
  cases s with
  | plain a =>
    simp only [Arena.use, arena, allocate]
    cases a.allocate region size align with
    | ok granted => simp
    | error e => simp
  | recorded r =>
    simp only [Arena.use, arena, allocate, Recorder.allocate]
    cases r.arena.allocate region size align with
    | ok granted => simp
    | error e => simp

theorem use_eq (s : Store) (category : Category) (u : Arena.Use) :
    (s.use category u).1 = (s.arena.use u).1 ∧ (s.use category u).2.arena = (s.arena.use u).2 := by
  cases u with
  | write offset bytes => simp [use, Arena.use]
  | call c =>
    cases c with
    | resetHead => simp [use, Arena.use]
    | allocate region size align =>
      obtain ⟨hanswer, harena⟩ := s.allocate_eq region size align category
      exact ⟨hanswer.symm, harena.symm⟩

/-! ## Whole runs -/

/-- The holder of a store sees what the holder of its arena would see. -/
theorem watch_eq (s : Store) (uses : List (Arena.Use × Category)) :
    s.watch uses = s.arena.watch (uses.map Prod.fst) := by
  induction uses generalizing s with
  | nil => rfl
  | cons step rest ih =>
    obtain ⟨u, category⟩ := step
    obtain ⟨hanswer, harena⟩ := s.use_eq category u
    simp only [watch, Arena.watch, List.map_cons, ih, observe_arena, hanswer, harena]

end Store

namespace Recorder

/-- Creation is the request for the recorder's own block. -/
theorem create_eq (a : Arena) :
    (create a).2.map Recorder.arena =
      (a.allocate .tail bookkeepingBytes arenaAlignment).map Prod.snd := by
  unfold create allocate
  cases a.allocate .tail bookkeepingBytes arenaAlignment with
  | ok granted => rfl
  | error e => rfl

/-- Over any buffer, either a recorder and the request for its block fail alike, or both succeed,
and from then on the recorder, the arena behind the trait of both, and the arena by itself show
their holders the same: at once and after every step, whatever the categories. -/
theorem create_substitutes (address : Nat) (buffer : Memory) :
    let fresh := Arena.ofBuffer address buffer
    (∃ e, (create fresh).2 = .error e ∧
      fresh.allocate .tail bookkeepingBytes arenaAlignment = .error e) ∨
    ∃ r offset a, (create fresh).2 = .ok r ∧
      fresh.allocate .tail bookkeepingBytes arenaAlignment = .ok (offset, a) ∧
      (Store.recorded r).observe none = a.observe none ∧
      ∀ uses : List (Arena.Use × Category),
        (Store.recorded r).watch uses = a.watch (uses.map Prod.fst) ∧
        (Store.plain a).watch uses = a.watch (uses.map Prod.fst) := by
  intro fresh
  have hstart := create_eq fresh
  cases hplain : fresh.allocate .tail bookkeepingBytes arenaAlignment with
  | error e =>
    cases hcreate : (create fresh).2 with
    | ok r =>
      rw [hplain, hcreate] at hstart
      cases hstart
    | error e' =>
      rw [hplain, hcreate] at hstart
      cases hstart
      exact .inl ⟨e, rfl, rfl⟩
  | ok granted =>
    obtain ⟨offset, a⟩ := granted
    cases hcreate : (create fresh).2 with
    | error e =>
      rw [hplain, hcreate] at hstart
      cases hstart
    | ok r =>
      rw [hplain, hcreate] at hstart
      have harena : r.arena = a := Except.ok.inj hstart
      refine .inr ⟨r, offset, a, rfl, rfl, ?_, fun uses => ⟨?_, Store.watch_eq _ uses⟩⟩
      · rw [Store.observe_arena, Store.arena, harena]
      · rw [Store.watch_eq, Store.arena, harena]

end Recorder

end TensorArena
