import TensorArena.Interpreter.Invoke
import TensorArena.Proofs.Interpreter.Running

/-!
# Kernels that are watched

To say in what order the kernels of an interpreter are called, every kernel is wrapped: it does what
it did, and each call on it leaves a mark in a trace that stands beside the values outside the arena.
The interpreter does not know; whatever it does with the wrapped kernels can be read off the trace.

Kernels are numbered in the order in which they are made. A call to prepare or to invoke leaves one
mark where it begins and one where it returns, so that a call that failed can be told from one that
ended well.
-/

namespace TensorArena

variable {σ π : Type}

/-- The calls on a kernel that have an outcome. -/
inductive Duty where
  | prepare
  | invoke
  deriving DecidableEq, Repr

/-- A mark in a trace. -/
inductive Event where
  | made (number : Nat) (code : OpCode)
  | called (duty : Duty) (number : Nat) (op : Operator)
  | returned (duty : Duty) (number : Nat) (well : Bool)
  | freed (number : Nat)
  deriving DecidableEq, Repr

namespace Event

def isMade : Event → Bool
  | made .. => true
  | _ => false

end Event

abbrev Trace := List Event

/-- The values outside the arena with another mark beside them. -/
def mark (e : Event) : σ × Trace → σ × Trace :=
  Prod.map id (· ++ [e])

/-- Whether a call ended well. -/
def endedWell {ε α : Type} : Except ε α → Bool
  | .ok _ => true
  | .error _ => false

/-- A preparation that leaves a mark where it ends. -/
def Preparation.watched (number : Nat) : Preparation σ → Preparation (σ × Trace)
  | .done => .outside (mark (.returned .prepare number true)) fun _ => .done
  | .fail e => .outside (mark (.returned .prepare number false)) fun _ => .fail e
  | .scratch size granted refused =>
    .scratch size (fun k => (granted k).watched number) fun e => (refused e).watched number
  | .persistent size fill granted refused =>
    .persistent size fill (fun before => (granted before).watched number)
      fun e => (refused e).watched number
  | .outside change next => .outside (Prod.map change id) fun o => (next o.1).watched number

/-- A kernel that does the same and leaves marks. -/
def Kernel.watched (k : Kernel σ) (number : Nat) : Kernel (σ × Trace) where
  prepare signature :=
    .outside (mark (.called .prepare number signature.operator)) fun _ =>
      (k.prepare signature).watched number
  invoke := ExceptT.mk fun (o, outside, trace) =>
    match k.invoke.run (o, outside) with
    | (outcome, after, outside) =>
      (outcome, after, outside,
        trace ++ [.called .invoke number o.operator, .returned .invoke number (endedWell outcome)])
  free := fun (outside, trace) => (k.free outside, trace ++ [.freed number])

/-- Makes watched kernels, and numbers them in the order in which they are made. -/
def Factory.watched (f : Factory σ) (code : OpCode) : Factory (σ × Trace) :=
  fun (outside, trace) =>
    let number := trace.countP Event.isMade
    ((f outside).1.watched number, (f outside).2, trace ++ [.made number code])

def Resolver.watched (r : Resolver σ) : Resolver (σ × Trace) :=
  fun code => (r code).map fun f => f.watched code

/-- Watched kernels with numbers in a row. -/
def watchedFrom (number : Nat) : List (Kernel σ) → List (Kernel (σ × Trace))
  | [] => []
  | k :: rest => k.watched number :: watchedFrom (number + 1) rest

def Site.trace (s : Site (σ × Trace) π) : Trace :=
  s.outside.2

/-- The site without its trace. -/
def Site.unwatched (s : Site (σ × Trace) π) : Site σ π :=
  { s with outside := s.outside.1 }

/-! ## Sweeps -/

/-- Marks of calls on kernels in a row, from a number on, and whether the last call failed. All calls
before it end well. The row may break off after any call, and does so after one that fails. -/
inductive Sweep (duty : Duty) : (number : Nat) → List Operator → (failed : Bool) → Trace → Prop where
  | stop {number : Nat} {ops : List Operator} : Sweep duty number ops false []
  | well {number : Nat} {op : Operator} {rest : List Operator} {failed : Bool} {events : Trace} :
      Sweep duty (number + 1) rest failed events →
        Sweep duty number (op :: rest) failed
          (.called duty number op :: .returned duty number true :: events)
  | ill {number : Nat} {op : Operator} {rest : List Operator} :
      Sweep duty number (op :: rest) true [.called duty number op, .returned duty number false]

/-- Marks of calls on all kernels in a row, each ending well. -/
def sweepAll (duty : Duty) : (number : Nat) → List Operator → Trace
  | _, [] => []
  | number, op :: rest =>
    .called duty number op :: .returned duty number true :: sweepAll duty (number + 1) rest

theorem sweep_sweepAll (duty : Duty) (number : Nat) (ops : List Operator) :
    Sweep duty number ops false (sweepAll duty number ops) := by
  induction ops generalizing number with
  | nil => exact .stop
  | cons op rest ih => exact .well (ih (number + 1))

/-- A sweep calls each kernel once, and those before and after it not at all. -/
theorem Sweep.called_lt {duty duty' : Duty} {number n : Nat} {ops : List Operator} {failed : Bool}
    {events : Trace} (h : Sweep duty number ops failed events) {op : Operator} (hn : .called duty' n op ∈ events) :
    duty' = duty ∧ number ≤ n ∧ n < number + ops.length := by
  induction h with
  | stop => cases hn
  | well hrest ih =>
    simp only [List.mem_cons, Event.called.injEq, reduceCtorEq, false_or] at hn
    rw [List.length_cons]
    rcases hn with ⟨rfl, rfl, -⟩ | hn
    · exact ⟨rfl, Nat.le_refl _, by omega⟩
    · obtain ⟨hd, hle, hlt⟩ := ih hn
      exact ⟨hd, by omega, by omega⟩
  | ill =>
    simp only [List.mem_cons, Event.called.injEq, reduceCtorEq, List.not_mem_nil, or_false] at hn
    obtain ⟨rfl, rfl, -⟩ := hn
    rw [List.length_cons]
    exact ⟨rfl, Nat.le_refl _, by omega⟩

/-! ## Watching changes nothing -/

theorem Site.unwatched_allocate (s : Site (σ × Trace) π) (region : Region) (size : Nat)
    (category : Category) :
    s.unwatched.allocate region size category =
      ((s.allocate region size category).1, (s.allocate region size category).2.unwatched) := by
  unfold allocate request unwatched
  cases s.store.allocate region size arenaAlignment category with
  | mk answer store =>
    cases answer with
    | ok offset => rfl
    | error e => rfl

/-- A watched preparation ends as it would without marks. -/
theorem Preparation.unwatched_run (p : Preparation σ) (number : Nat) (grant : Grant)
    (s : Site (σ × Trace) π) :
    p.run grant s.unwatched = (((p.watched number).run grant s).1,
      ((p.watched number).run grant s).2.unwatched) := by
  induction p generalizing grant s with
  | done => rfl
  | fail e => rfl
  | scratch size granted refused ihGranted ihRefused =>
    unfold watched run
    split
    · exact ihRefused ..
    · exact ihGranted ..
  | outside change next ih =>
    exact ih s.outside.1 grant { s with outside := Prod.map change id s.outside }
  | persistent size fill granted refused ihGranted ihRefused =>
    unfold watched run
    split
    · exact ihRefused ..
    · rw [Site.unwatched_allocate]
      rcases s.allocate .tail size .opData with ⟨e | offset, s'⟩
      · exact ihRefused ..
      · dsimp only
        have hread : s'.unwatched.store = s'.store := rfl
        rw [hread]
        split
        · exact ihRefused ..
        · exact ihGranted _ _ (s'.mapMemory _)

theorem Kernel.unwatched_prepare (k : Kernel σ) (number : Nat) (signature : Signature)
    (s : Site (σ × Trace) π) :
    (k.prepare signature).run {} s.unwatched =
      ((((k.watched number).prepare signature).run {} s).1,
        (((k.watched number).prepare signature).run {} s).2.unwatched) :=
  Preparation.unwatched_run (k.prepare signature) number {}
    { s with outside := mark (.called .prepare number signature.operator) s.outside }

theorem Kernel.unwatched_invoke (k : Kernel σ) (number : Nat) (o : Operands) (outside : σ × Trace) :
    k.invoke.run (o, outside.1) =
      (((k.watched number).invoke.run (o, outside)).1,
        ((k.watched number).invoke.run (o, outside)).2.1,
        ((k.watched number).invoke.run (o, outside)).2.2.1) :=
  rfl

theorem Kernel.unwatched_free (k : Kernel σ) (number : Nat) (outside : σ × Trace) :
    k.free outside.1 = ((k.watched number).free outside).1 :=
  rfl

/-! ## What a watched kernel leaves -/

namespace Site

@[simp]
theorem trace_mapMemory (s : Site (σ × Trace) π) (f : Memory → Memory) :
    (s.mapMemory f).trace = s.trace :=
  rfl

@[simp]
theorem trace_note (s : Site (σ × Trace) π) (level : Level) (text : String) :
    (s.note level text).trace = s.trace :=
  rfl

theorem outside_allocate {s s' : Site σ π} {region : Region} {size : Nat} {category : Category}
    {answer : Except MemoryError Nat} (h : s.allocate region size category = (answer, s')) :
    s'.outside = s.outside := by
  unfold allocate request at h
  split at h
  · cases h
    rfl
  · cases h
    rfl

end Site

/-- Whatever a preparation asks for, it leaves one mark, which tells how it ended. -/
theorem Preparation.watched_run (p : Preparation σ) (number : Nat) (grant : Grant)
    (s : Site (σ × Trace) π) :
    ((p.watched number).run grant s).2.trace =
      s.trace ++ [.returned .prepare number (endedWell ((p.watched number).run grant s).1)] := by
  induction p generalizing grant s with
  | done => rfl
  | fail e => rfl
  | scratch size granted refused ihGranted ihRefused =>
    unfold watched run
    split
    · exact ihRefused ..
    · exact ihGranted ..
  | outside change next ih =>
    unfold watched run
    exact ih ..
  | persistent size fill granted refused ihGranted ihRefused =>
    unfold watched run
    split
    · exact ihRefused ..
    · split
      · rename_i e s' hrefused
        have hsame : s'.trace = s.trace := congrArg Prod.snd (Site.outside_allocate hrefused)
        rw [← hsame]
        exact ihRefused ..
      · rename_i offset s' hgranted
        have hsame : s'.trace = s.trace := congrArg Prod.snd (Site.outside_allocate hgranted)
        rw [← hsame]
        dsimp only
        split
        · exact ihRefused ..
        · exact ihGranted ..

theorem Kernel.watched_prepare (k : Kernel σ) (number : Nat) (signature : Signature)
    (s : Site (σ × Trace) π) :
    (((k.watched number).prepare signature).run {} s).2.trace =
      s.trace ++ [.called .prepare number signature.operator,
        .returned .prepare number
          (endedWell (((k.watched number).prepare signature).run {} s).1)] := by
  unfold watched Preparation.run
  rw [Preparation.watched_run]
  simp [Site.trace, mark]

theorem Kernel.watched_invoke (k : Kernel σ) (number : Nat) (o : Operands) (outside : σ × Trace) :
    ((k.watched number).invoke.run (o, outside)).2.2.2 =
      outside.2 ++ [.called .invoke number o.operator,
        .returned .invoke number (endedWell ((k.watched number).invoke.run (o, outside)).1)] :=
  rfl

theorem freeAll_watchedFrom (ks : List (Kernel σ)) (number : Nat) (outside : σ × Trace) :
    (freeAll (watchedFrom number ks) outside).2 =
      outside.2 ++ (List.range' number ks.length).map Event.freed := by
  induction ks generalizing number outside with
  | nil => simp [freeAll, watchedFrom]
  | cons k rest ih =>
    have hrest := ih (number + 1) ((k.watched number).free outside)
    unfold freeAll at hrest ⊢
    rw [watchedFrom, List.foldl_cons, hrest]
    simp [Kernel.watched, List.range'_succ]

end TensorArena
