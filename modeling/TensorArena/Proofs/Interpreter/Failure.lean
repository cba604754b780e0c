import TensorArena.Proofs.Interpreter.Reach
import TensorArena.Proofs.Interpreter.States

/-!
# The first kernel that fails

A run of operators is a run of the first ones and then, if those succeed, of the others: `runAll_append`.
So a run that ends with the error of a kernel splits at that kernel. The operators before it have run to
completion, the kernel has run on what was bound to it, and of the operators behind it nothing enters.
`FirstFailure` holds this split, for any bytes in the store, and `Stopped` what an invocation leaves
where there is one: the arena as the operators before left it, with what the failing kernel wrote into
its own slices.
-/

namespace TensorArena

variable {σ π : Type}

/-! ## Runs in two parts -/

namespace Pass

variable {g : Graph} {profiler : Option (Profiler π)} {context : Option Int} {tables : Tables}

/-- The others run where the first ones end. -/
theorem runAll_append {done : List (Operator × Kernel σ)} (rest : List (Operator × Kernel σ))
    {index : Nat} {s s' : Site σ π}
    (h : (runAll g profiler context tables done index).exec s = (.ok (), s')) :
    (runAll g profiler context tables (done ++ rest) index).exec s =
      (runAll g profiler context tables rest (index + done.length)).exec s' := by
  induction done generalizing index s with
  | nil =>
    cases h
    rfl
  | cons p done ih =>
    obtain ⟨op, k⟩ := p
    rw [List.cons_append, runAll, exec_bind]
    rw [runAll, exec_bind] at h
    rcases hone : (runOperator g profiler context tables index op k).exec s with ⟨e | _, s₁⟩
    · rw [hone] at h
      cases h
    · rw [hone] at h
      have hrest := ih h
      rw [List.length_cons, Nat.add_comm done.length, ← Nat.add_assoc]
      exact hrest

/-- A kernel that fails on what is bound to it ends the run, whatever operators come next. -/
theorem runAll_of_fails {op : Operator} {k : Kernel σ} {index : Nat} {s : Site σ π} {o : Operands}
    (hbound : s.bound g op tables index context = .ok o) {cause : KernelError}
    (hfails : (k.invoke.run (o, s.outside)).1 = .error cause) :
    ∃ s', Site.Ran k o (.error cause) s s' ∧ ∀ rest,
      (runAll g profiler context tables ((op, k) :: rest) index).exec s =
        (.error (.kernel index op.name cause), s') := by
  have hruns := runOperator_runs s g profiler context tables index op k
  rcases hone : (runOperator g profiler context tables index op k).exec s with ⟨e | _, s'⟩
  · have hran : e = .kernel index op.name cause ∧ Site.Ran k o (.error cause) s s' := by
      rcases hruns.of_error hone with ⟨hunbound, -⟩ | ⟨o', cause', hbound', rfl, hran⟩
      · cases hbound.symm.trans hunbound
      · cases hbound.symm.trans hbound'
        cases hfails.symm.trans hran.outcome_eq
        exact ⟨rfl, hran⟩
    refine ⟨s', hran.2, fun rest => ?_⟩
    rw [runAll, exec_bind, hone, hran.1]
  · obtain ⟨o', hbound', hran⟩ := hruns.of_ok hone
    cases hbound.symm.trans hbound'
    cases hfails.symm.trans hran.outcome_eq

end Pass

namespace Interpreter

/-! ## Where a run splits -/

/-- Runs the first operators of an interpreter, so many of them. -/
def runFirst (i : Interpreter σ π) (tables : Tables) (count : Nat) : Pass σ π ExecutionError Unit :=
  .runAll i.graph.toGraph i.activeProfiler i.context tables
    ((i.graph.operators.zip i.kernels).take count) 0

/-- The first kernel that fails when the interpreter runs on a site: the operators before it run to
completion, it is bound, and it reports an error. -/
structure FirstFailure (i : Interpreter σ π) (tables : Tables) (s : Site σ π) where
  index : Nat
  operator : Operator
  kernel : Kernel σ
  cause : KernelError
  /-- The site when the operators before it have run. -/
  before : Site σ π
  /-- What the kernel is handed. -/
  operands : Operands
  /-- What it leaves of that. -/
  left : Operands
  /-- The values outside the arena as it leaves them. -/
  outside : σ
  kernel_eq : (i.graph.operators.zip i.kernels)[index]? = some (operator, kernel)
  completed : (i.runFirst tables index).exec s = (.ok (), before)
  bound : before.bound i.graph.toGraph operator tables index i.context = .ok operands
  fails : kernel.invoke.run (operands, before.outside) = (.error cause, left, outside)

/-- The error that an invocation answers. -/
def FirstFailure.error {i : Interpreter σ π} {tables : Tables} {s : Site σ π}
    (f : i.FirstFailure tables s) : ExecutionError :=
  .kernel f.index f.operator.name f.cause

end Interpreter

/-- A run that ends with the error of a kernel splits there. -/
theorem Pass.exists_fails (g : Graph) (profiler : Option (Profiler π)) (context : Option Int)
    (tables : Tables) (pairs : List (Operator × Kernel σ)) (index : Nat) (s : Site σ π)
    {k : Nat} {name : String} {cause : KernelError} {s' : Site σ π}
    (h : (runAll g profiler context tables pairs index).exec s =
      (.error (.kernel k name cause), s')) :
    ∃ j op kernel before o, k = index + j ∧ name = op.name ∧ pairs[j]? = some (op, kernel) ∧
      (runAll g profiler context tables (pairs.take j) index).exec s = (.ok (), before) ∧
      before.bound g op tables k context = .ok o ∧
      (kernel.invoke.run (o, before.outside)).1 = .error cause := by
  induction pairs generalizing index s with
  | nil => cases h
  | cons p rest ih =>
    obtain ⟨op, kernel⟩ := p
    have hruns := runOperator_runs s g profiler context tables index op kernel
    rw [runAll, exec_bind] at h
    rcases hone : (runOperator g profiler context tables index op kernel).exec s with ⟨e | _, s₁⟩
    · rw [hone] at h
      cases h
      rcases hruns.of_error hone with ⟨hunbound, -⟩ | ⟨o, cause', hbound, herror, hran⟩
      · exact (Site.bound_ofBinding hunbound).elim
      · cases herror
        exact ⟨0, op, kernel, s, o, rfl, rfl, rfl, rfl, hbound, hran.outcome_eq⟩
    · rw [hone] at h
      obtain ⟨j, op', kernel', before, o, rfl, hname, hj, hfirst, hrest⟩ := ih (index + 1) s₁ h
      refine ⟨j + 1, op', kernel', before, o, by omega, hname, hj, ?_, hrest⟩
      rw [List.take_succ_cons, runAll, exec_bind, hone]
      exact hfirst

namespace Interpreter

variable {i : Interpreter σ π} {tables : Tables} {s : Site σ π}

/-- The invocation of an allocated interpreter whose run ends with the error of a kernel. -/
theorem invoke_of_kernel_error (hstate : i.state = .allocated tables) (hhold : s.hold = .free)
    {k : Nat} {name : String} {cause : KernelError} {s' : Site σ π}
    (h : (Pass.runAll i.graph.toGraph i.activeProfiler i.context tables
      (i.graph.operators.zip i.kernels) 0).exec s = (.error (.kernel k name cause), s')) :
    i.invoke s = (.error (.kernel k name cause), { i with state := .failed (some tables) },
      s'.note .error s!"'{i.graph.name}' {(ExecutionError.kernel k name cause).message}") := by
  have hrun : (Pass.runAll i.graph.toGraph i.activeProfiler i.context tables
      (i.graph.operators.zip i.kernels) 0).run.run s = (.error (.kernel k name cause), s') := h
  rw [invoke_of_allocated hstate, runOnce, if_neg (not_not_intro hhold), hrun]

/-- An invocation that answers the error of a kernel has a first kernel that fails, and it is the one
that the answer names. -/
theorem exists_firstFailure (hstate : i.state = .allocated tables) {k : Nat} {name : String}
    {cause : KernelError} (herror : (i.invoke s).1 = .error (.kernel k name cause)) :
    ∃ f : i.FirstFailure tables s, f.index = k ∧ f.operator.name = name ∧ f.cause = cause := by
  rw [invoke_of_allocated hstate, runOnce] at herror
  split at herror
  · cases herror
  · have hexec : ∃ s', (Pass.runAll i.graph.toGraph i.activeProfiler i.context tables
        (i.graph.operators.zip i.kernels) 0).exec s = (.error (.kernel k name cause), s') := by
      split at herror
      · rename_i hexec
        cases herror
        exact ⟨_, hexec⟩
      · rename_i hexec
        cases herror
        exact ⟨_, hexec⟩
    obtain ⟨s', hexec⟩ := hexec
    obtain ⟨j, op, kernel, before, o, rfl, rfl, hj, hfirst, hbound, hfails⟩ :=
      Pass.exists_fails _ _ _ _ _ _ _ hexec
    rw [Nat.zero_add] at hbound
    rcases hrun : kernel.invoke.run (o, before.outside) with ⟨outcome, left, outside⟩
    rw [hrun] at hfails
    cases hfails
    exact ⟨⟨j, op, kernel, cause, before, o, left, outside, hj, hfirst, hbound, hrun⟩,
      (Nat.zero_add j).symm, rfl, rfl⟩

end Interpreter

/-! ## What an invocation leaves -/

/-- The offsets that a running operator may write: in its outputs, its variable inputs, its scratch
blocks and its persistent data. -/
inductive Operands.Writes (o : Operands) (x : Nat) : Prop
  | output {t : Tensor} {slice : Slice} :
      some (t, slice) ∈ o.outputs → slice.range.Covers x → o.Writes x
  | var {t : Tensor} {slice : Slice} :
      .var t slice ∈ o.inputs → slice.range.Covers x → o.Writes x
  | scratch {slice : Slice} : slice ∈ o.scratch → slice.range.Covers x → o.Writes x
  | persistent : o.userData.range.Covers x → o.Writes x

/-- These are the offsets in the slices that are put back. -/
theorem Operands.writes_iff {o : Operands} {x : Nat} :
    o.Writes x ↔ ∃ slice ∈ o.writable, slice.range.Covers x := by
  simp only [writable, List.mem_append, List.mem_filterMap, List.mem_singleton]
  constructor
  · intro h
    cases h with
    | output houtput hx => exact ⟨_, .inl (.inl (.inr ⟨_, houtput, rfl⟩)), hx⟩
    | var hinput hx => exact ⟨_, .inl (.inl (.inl ⟨_, hinput, rfl⟩)), hx⟩
    | scratch hscratch hx => exact ⟨_, .inl (.inr hscratch), hx⟩
    | persistent hx => exact ⟨_, .inr rfl, hx⟩
  · rintro ⟨slice, ((⟨input, hinput, hslice⟩ | ⟨output, houtput, hslice⟩) | hscratch) | rfl, hx⟩
    · cases input with
      | var t own =>
        cases hslice
        exact .var hinput hx
      | absent => cases hslice
      | shared t own => cases hslice
    · obtain ⟨⟨t, own⟩, rfl, rfl⟩ := Option.map_eq_some_iff.mp hslice
      exact .output houtput hx
    · exact .scratch hscratch hx
    · exact .persistent hx

namespace Interpreter.FirstFailure

variable {i : Interpreter σ π} {tables : Tables} {s : Site σ π}

/-- The site after an invocation that stopped at a failing kernel. -/
structure Stopped (f : i.FirstFailure tables s) (s' : Site σ π) : Prop where
  /-- All that is left is what a run of the operators up to this one leaves, and a line in the log. -/
  site_eq : s' = ((i.runFirst tables (f.index + 1)).exec s).2.note .error
    s!"'{i.graph.name}' {f.error.message}"
  /-- Nor is a kernel behind it called: with any others the invocation is the same. -/
  uncalled : ∀ kernels : List (Kernel σ),
    kernels.take (f.index + 1) = i.kernels.take (f.index + 1) →
    ({ i with kernels } : Interpreter σ π).invoke s =
      (.error f.error, { i with kernels, state := .failed (some tables) }, s')
  outside_eq : s'.outside = f.outside
  /-- The arena is as the operators before left it, but for what this kernel wrote. -/
  arena_eq : s'.arena =
    { f.before.arena with memory := f.before.memory.writeBack f.operands f.left }
  /-- It wrote in its own slices only. -/
  unchanged : ∀ x, ¬ f.operands.Writes x → s'.memory.get x = f.before.memory.get x

/-- With any operators behind the failing one, a run ends the same way. -/
theorem exists_end (f : i.FirstFailure tables s) :
    ∃ s₁, Site.Ran f.kernel f.operands (.error f.cause) f.before s₁ ∧ ∀ rest,
      (Pass.runAll i.graph.toGraph i.activeProfiler i.context tables
        ((i.graph.operators.zip i.kernels).take (f.index + 1) ++ rest) 0).exec s =
          (.error f.error, s₁) := by
  obtain ⟨s₁, hran, hend⟩ := Pass.runAll_of_fails f.bound (congrArg Prod.fst f.fails)
  refine ⟨s₁, hran, fun rest => ?_⟩
  have hlen : ((i.graph.operators.zip i.kernels).take f.index).length = f.index :=
    List.length_take_of_le (Nat.le_of_lt (List.getElem?_eq_some_iff.mp f.kernel_eq).1)
  have hsplit := Pass.runAll_append ((f.operator, f.kernel) :: rest) f.completed
  rw [List.take_add_one, f.kernel_eq, List.append_assoc]
  rw [hlen, Nat.zero_add] at hsplit
  exact hsplit.trans (hend rest)

/-- With other kernels behind the failing one, the invocation is the same. -/
theorem invoke_eq (f : i.FirstFailure tables s) (hstate : i.state = .allocated tables)
    (hhold : s.hold = .free) {kernels : List (Kernel σ)}
    (hkernels : kernels.take (f.index + 1) = i.kernels.take (f.index + 1)) :
    ({ i with kernels } : Interpreter σ π).invoke s =
      (.error f.error, { i with kernels, state := .failed (some tables) },
        ((i.runFirst tables (f.index + 1)).exec s).2.note .error
          s!"'{i.graph.name}' {f.error.message}") := by
  obtain ⟨s₁, -, hend⟩ := f.exists_end
  have hfirst : (i.graph.operators.zip kernels).take (f.index + 1) =
      (i.graph.operators.zip i.kernels).take (f.index + 1) := by
    rw [List.zip, List.take_zipWith, hkernels, ← List.take_zipWith]
  have hself := hend []
  have hexec := hend ((i.graph.operators.zip kernels).drop (f.index + 1))
  rw [List.append_nil] at hself
  rw [← hfirst, List.take_append_drop] at hexec
  rw [runFirst, hself]
  exact invoke_of_kernel_error (i := { i with kernels }) hstate hhold hexec

/-- An invocation stops at the first kernel that fails. -/
theorem stopped (f : i.FirstFailure tables s) (hstate : i.state = .allocated tables)
    (hhold : s.hold = .free) :
    ∃ s', i.invoke s = (.error f.error, { i with state := .failed (some tables) }, s') ∧
      f.Stopped s' := by
  obtain ⟨s₁, hran, hend⟩ := f.exists_end
  have hself := hend []
  rw [List.append_nil] at hself
  have hmemory : s₁.memory = f.before.memory.writeBack f.operands f.left := by
    rw [hran.memory_eq, f.fails]
  refine ⟨_, f.invoke_eq hstate hhold rfl, rfl, fun _ => f.invoke_eq hstate hhold, ?_, ?_, ?_⟩
  · rw [runFirst, hself]
    exact hran.outside_eq.trans (by rw [f.fails])
  · rw [runFirst, hself, ← hmemory]
    show s₁.store.arena = { f.before.store.arena with memory := s₁.store.arena.memory }
    rw [hran.store_eq, Store.arena_mapMemory]
  · rw [runFirst, hself]
    intro x hx
    show s₁.memory.get x = _
    rw [hmemory]
    exact Memory.get_writeBack_of_not_covers _ fun slice hslice hcovers =>
      hx (Operands.writes_iff.mpr ⟨slice, hslice, hcovers⟩)

end Interpreter.FirstFailure

end TensorArena
