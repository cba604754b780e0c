import TensorArena.Interpreter.Access
import TensorArena.Proofs.Interpreter.Calls
import TensorArena.Proofs.Interpreter.Errors

/-!
# What calls do to the state of an interpreter

A created interpreter becomes allocated or failed by its pass; an allocated one fails when a kernel
fails, and for no other reason; a failed one stays as it is. `Orderly` collects what an owner may
count on at one moment: what each call answers in each state, that a busy answer changes nothing, and
which tensors can be had.

Whether a kernel fails is said by `KernelFails` without running the interpreter: the kernels run one
after the other on what is bound to them, and one of them reports an error.
-/

namespace TensorArena

variable {σ π : Type}

/-! ## Kernels that fail -/

/-- The operands of an operator, by the tables in the memory. -/
def Memory.bound (m : Memory) (g : Graph) (op : Operator) (tables : Tables) (index : Nat)
    (context : Option Int) : Except ExecutionError Operands := do
  let row ← (m.readRow OpRow.layout tables.operators index).mapError ExecutionError.memory
  m.bind g op tables row context

/-- When operators run in order, each on the bytes and values that the one before left, a kernel is
reached that reports an error. -/
def KernelFails (g : Graph) (tables : Tables) (context : Option Int) :
    List (Operator × Kernel σ) → (index : Nat) → Memory → σ → Prop
  | [], _, _, _ => False
  | (op, k) :: rest, index, m, outside =>
    ∃ o, m.bound g op tables index context = .ok o ∧
      match k.invoke.run (o, outside) with
      | (.error _, _) => True
      | (.ok (), after, outside) =>
        KernelFails g tables context rest (index + 1) (m.writeBack o after) outside

section

variable {g : Graph} {tables : Tables} {context : Option Int} {op : Operator} {k : Kernel σ}
  {rest : List (Operator × Kernel σ)} {index : Nat} {s s' : Site σ π} {o : Operands}

theorem not_kernelFails_of_unbound {e : ExecutionError}
    (hbound : s.bound g op tables index context = .error e) :
    ¬ KernelFails g tables context ((op, k) :: rest) index s.memory s.outside := by
  rintro ⟨o, hok, -⟩
  have hok : s.bound g op tables index context = .ok o := hok
  rw [hbound] at hok
  cases hok

theorem kernelFails_of_ran {cause : KernelError}
    (hbound : s.bound g op tables index context = .ok o)
    (hran : Site.Ran k o (.error cause) s s') :
    KernelFails g tables context ((op, k) :: rest) index s.memory s.outside := by
  refine ⟨o, hbound, ?_⟩
  have houtcome := hran.outcome_eq
  split
  · trivial
  · rename_i hrun
    rw [hrun] at houtcome
    cases houtcome

theorem kernelFails_cons_iff (hbound : s.bound g op tables index context = .ok o)
    (hran : Site.Ran k o (.ok ()) s s') :
    KernelFails g tables context ((op, k) :: rest) index s.memory s.outside ↔
      KernelFails g tables context rest (index + 1) s'.memory s'.outside := by
  have houtcome := hran.outcome_eq
  rw [hran.memory_eq, hran.outside_eq]
  constructor
  · rintro ⟨o', hok, hrest⟩
    have hok : s.bound g op tables index context = .ok o' := hok
    rw [hbound] at hok
    cases hok
    split at hrest
    · rename_i hrun
      rw [hrun] at houtcome
      cases houtcome
    · rename_i hrun
      rw [hrun]
      exact hrest
  · intro hrest
    refine ⟨o, hbound, ?_⟩
    split
    · trivial
    · rename_i hrun
      rw [hrun] at hrest
      exact hrest

end

/-- An error that a run of operators may end with. -/
def ExecutionError.OfRun (e : ExecutionError) : Prop :=
  e.OfBinding ∨ ∃ index name cause, e = .kernel index name cause

/-- A run of all operators ends with the error of a kernel exactly when a kernel fails. -/
theorem Pass.runAll_kernelFails (g : Graph) (profiler : Option (Profiler π)) (context : Option Int)
    (tables : Tables) (pairs : List (Operator × Kernel σ)) (index : Nat) (s : Site σ π) :
    (runAll g profiler context tables pairs index).Runs s
      (fun _ _ => ¬ KernelFails g tables context pairs index s.memory s.outside)
      (fun e _ => e.OfRun ∧ (KernelFails g tables context pairs index s.memory s.outside ↔
        ∃ k name cause, e = .kernel k name cause)) := by
  induction pairs generalizing index s with
  | nil => exact .of_pure fun h => h
  | cons p rest ih =>
    obtain ⟨op, k⟩ := p
    refine ((runOperator_runs s g profiler context tables index op k).mono (fun _ _ h => h)
      fun e s' h => ?_).bind fun _ s' ⟨o, hbound, hran⟩ => ?_
    · rcases h with ⟨hbound, -⟩ | ⟨o, cause, hbound, rfl, hran⟩
      · refine ⟨.inl (Site.bound_ofBinding hbound), fun h => absurd h
          (not_kernelFails_of_unbound hbound), ?_⟩
        rintro ⟨_, _, _, rfl⟩
        exact (Site.bound_ofBinding hbound).elim
      · exact ⟨.inr ⟨index, op.name, cause, rfl⟩, fun _ => ⟨index, op.name, cause, rfl⟩,
          fun _ => kernelFails_of_ran hbound hran⟩
    · rw [kernelFails_cons_iff hbound hran]
      exact ih (index + 1) s'

namespace Interpreter

/-- The allocation pass of an interpreter. -/
def pass (i : Interpreter σ π) : Pass σ π AllocationError Tables :=
  Pass.commit i.graph.toGraph i.kernels i.strategy

/-- A kernel fails when the interpreter runs its operators on the site. -/
def Breaks (i : Interpreter σ π) (tables : Tables) (s : Site σ π) : Prop :=
  KernelFails i.graph.toGraph tables i.context (i.graph.operators.zip i.kernels) 0 s.memory
    s.outside

/-! ## What an owner may count on -/

/-- How calls on an interpreter follow its state. `passed` tells whether a pass of it succeeded
before. -/
structure Orderly (i : Interpreter σ π) (s : Site σ π) (passed : Prop) : Prop where
  /-- Where nobody holds the store, a created interpreter becomes allocated if its pass succeeds, and
  failed if not. -/
  allocate_created : i.state = .created → s.hold = .free →
    match (i.pass.exec s).1 with
    | .ok tables =>
      (i.allocate s).1 = .ok () ∧ (i.allocate s).2.1 = { i with state := .allocated tables }
    | .error e =>
      (i.allocate s).1 = .error e ∧ (i.allocate s).2.1 = { i with state := .failed none }
  allocate_allocated : ∀ tables, i.state = .allocated tables → i.allocate s = (.ok (), i, s)
  /-- Invoking a created interpreter is allocating it and then invoking it. -/
  invoke_created : i.state = .created →
    (i.invoke s).2 = ((i.allocate s).2.1.invoke (i.allocate s).2.2).2 ∧
    (i.invoke s).1 =
      match (i.allocate s).1 with
      | .ok () => ((i.allocate s).2.1.invoke (i.allocate s).2.2).1
      | .error e => .error (.allocation e)
  /-- An allocated interpreter fails when a kernel fails, and otherwise stays as it is. -/
  invoke_allocated : ∀ tables, i.state = .allocated tables → s.hold = .free →
    (i.Breaks tables s → (i.invoke s).2.1 = { i with state := .failed (some tables) }) ∧
    (¬ i.Breaks tables s → (i.invoke s).2.1 = i)
  /-- A failed interpreter refuses, and nothing changes. -/
  failed : ∀ known, i.state = .failed known →
    i.allocate s = (.error .failed, i, s) ∧ i.invoke s = (.error .failed, i, s)
  /-- Who finds the store held has changed nothing. -/
  allocate_busy : (i.allocate s).1 = .error .busy → (i.allocate s).2 = (i, s)
  invoke_busy : (i.invoke s).1 = .error .busy ∨ (i.invoke s).1 = .error (.allocation .busy) →
    (i.invoke s).2 = (i, s)
  readable : ∀ id t, i.graph.tensors[id]? = some t → i.graph.toGraph.Stored id t ∨ t.data.isSome →
    s.hold ≠ .exclusive →
    ((∃ handle, i.tensor s id = .ok handle) ↔
      (∃ tables, i.state = .allocated tables) ∨ (∃ known, i.state = .failed known) ∧ passed)
  writable : ∀ id t, i.graph.tensors[id]? = some t → i.graph.toGraph.Stored id t ∨ t.data.isSome →
    s.hold = .free →
    ((∃ handle, i.writableTensor s id = .ok handle) ↔
      (∃ tables, i.state = .allocated tables) ∧ t.data = none)

variable {i : Interpreter σ π} {s : Site σ π}

/-! ## Allocating -/

theorem allocate_eq_of_pass (hstate : i.state = .created) (hhold : s.hold = .free) :
    (∃ tables, (i.pass.exec s).1 = .ok tables ∧ (i.allocate s).1 = .ok () ∧
      (i.allocate s).2.1 = { i with state := .allocated tables }) ∨
    (∃ e, (i.pass.exec s).1 = .error e ∧ e.OfPass ∧ (i.allocate s).1 = .error e ∧
      (i.allocate s).2.1 = { i with state := .failed none }) := by
  have hruns := Pass.commit_ofPass i.graph.toGraph i.kernels i.strategy s
  unfold allocate pass
  rw [hstate]
  dsimp only
  rw [if_neg (not_not_intro hhold)]
  cases hexec : (Pass.commit i.graph.toGraph i.kernels i.strategy).exec s with
  | mk answer s' =>
    have hrun : (Pass.commit i.graph.toGraph i.kernels i.strategy).run.run s = (answer, s') := hexec
    rw [hrun]
    cases answer with
    | ok tables => exact .inl ⟨tables, rfl, rfl, rfl⟩
    | error e => exact .inr ⟨e, rfl, hruns.of_error hexec, rfl, rfl⟩

theorem allocate_of_held (hstate : i.state = .created) (hhold : s.hold ≠ .free) :
    i.allocate s = (.error .busy, i, s) := by
  unfold allocate
  rw [hstate]
  exact if_pos hhold

theorem allocate_of_allocated {tables : Tables} (hstate : i.state = .allocated tables) :
    i.allocate s = (.ok (), i, s) := by
  unfold allocate
  rw [hstate]

theorem allocate_of_failed {known : Option Tables} (hstate : i.state = .failed known) :
    i.allocate s = (.error .failed, i, s) := by
  unfold allocate
  rw [hstate]

/-- What is answered as busy was not begun: a pass has errors of its own only. -/
theorem allocate_of_busy (hbusy : (i.allocate s).1 = .error .busy) :
    i.allocate s = (.error .busy, i, s) := by
  cases hstate : i.state with
  | allocated tables =>
    rw [allocate_of_allocated hstate] at hbusy
    cases hbusy
  | failed known =>
    rw [allocate_of_failed hstate] at hbusy
    cases hbusy
  | created =>
    by_cases hhold : s.hold = .free
    · rcases allocate_eq_of_pass hstate hhold with ⟨tables, -, hok, -⟩ | ⟨e, -, hpass, herror, -⟩
      · rw [hok] at hbusy
        cases hbusy
      · rw [herror] at hbusy
        cases hbusy
        exact hpass.elim
    · exact allocate_of_held hstate hhold

/-- An interpreter that was just allocated knows its tables, and one whose allocation failed is not
allocated. -/
theorem state_of_allocate (hstate : i.state = .created) :
    (∃ tables, (i.allocate s).1 = .ok () ∧ (i.allocate s).2.1.state = .allocated tables) ∨
    (∃ e, (i.allocate s).1 = .error e ∧ (i.allocate s).2.1.state = .failed none) ∨
    i.allocate s = (.error .busy, i, s) := by
  by_cases hhold : s.hold = .free
  · rcases allocate_eq_of_pass hstate hhold with ⟨tables, -, hok, hi⟩ | ⟨e, -, -, herror, hi⟩
    · exact .inl ⟨tables, hok, by rw [hi]⟩
    · exact .inr (.inl ⟨e, herror, by rw [hi]⟩)
  · exact .inr (.inr (allocate_of_held hstate hhold))

/-! ## Invoking -/

theorem invoke_of_allocated {tables : Tables} (hstate : i.state = .allocated tables) :
    i.invoke s = i.runOnce tables s := by
  unfold invoke
  rw [hstate]

theorem invoke_of_failed {known : Option Tables} (hstate : i.state = .failed known) :
    i.invoke s = (.error .failed, i, s) := by
  unfold invoke
  rw [hstate]

theorem invoke_of_allocate_ok (hstate : i.state = .created) (hok : (i.allocate s).1 = .ok ()) :
    i.invoke s = (i.allocate s).2.1.invoke (i.allocate s).2.2 := by
  rcases i.state_of_allocate (s := s) hstate with ⟨tables, -, hnext⟩ | ⟨e, herror, -⟩ | hheld
  · rw [invoke_of_allocated hnext]
    unfold invoke
    rw [hstate]
    rcases hcall : i.allocate s with ⟨answer, i', s'⟩
    rw [hcall] at hok hnext
    dsimp only at hok hnext ⊢
    rw [hok]
    dsimp only
    rw [hnext]
  · rw [hok] at herror
    cases herror
  · rw [hheld] at hok
    cases hok

theorem invoke_of_allocate_error (hstate : i.state = .created) {e : AllocationError}
    (herror : (i.allocate s).1 = .error e) :
    i.invoke s = (.error (.allocation e), (i.allocate s).2) := by
  unfold invoke
  rw [hstate]
  rcases hcall : i.allocate s with ⟨answer, i', s'⟩
  rw [hcall] at herror
  dsimp only at herror ⊢
  rw [herror]

/-- Invoking after a failed allocation, or one that found the store held, changes nothing more. -/
theorem invoke_after_error (hstate : i.state = .created) {e : AllocationError}
    (herror : (i.allocate s).1 = .error e) :
    ((i.allocate s).2.1.invoke (i.allocate s).2.2).2 = (i.allocate s).2 := by
  rcases i.state_of_allocate (s := s) hstate with ⟨tables, hok, -⟩ | ⟨e', -, hfailed⟩ | hheld
  · rw [herror] at hok
    cases hok
  · rw [invoke_of_failed hfailed]
  · rw [hheld]
    rw [hheld] at herror
    cases herror
    have hbusy : (i.allocate s).1 = .error .busy := by
      rw [hheld]
    rw [invoke_of_allocate_error hstate hbusy, hheld]

/-- A run ends the interpreter when a kernel fails, and with any other outcome it leaves it. -/
theorem runOnce_of_free (tables : Tables) (hhold : s.hold = .free) :
    (i.Breaks tables s → (i.runOnce tables s).2.1 = { i with state := .failed (some tables) }) ∧
    (¬ i.Breaks tables s → (i.runOnce tables s).2.1 = i) := by
  have hruns := Pass.runAll_kernelFails i.graph.toGraph i.activeProfiler i.context tables
    (i.graph.operators.zip i.kernels) 0 s
  unfold runOnce
  rw [if_neg (not_not_intro hhold)]
  split
  · rename_i index name cause s' hexec
    obtain ⟨-, hiff⟩ := hruns.of_error hexec
    exact ⟨fun _ => rfl, fun h => absurd (hiff.mpr ⟨index, name, cause, rfl⟩) h⟩
  · rename_i outcome s' hkernel hexec
    refine ⟨fun h => ?_, fun _ => rfl⟩
    cases outcome with
    | ok _ => exact absurd h (hruns.of_ok hexec)
    | error e =>
      obtain ⟨index, name, cause, rfl⟩ := (hruns.of_error hexec).2.mp h
      exact absurd rfl (hkernel index name cause)

theorem runOnce_of_error {tables : Tables} (hhold : s.hold = .free) {e : ExecutionError}
    (herror : (i.runOnce tables s).1 = .error e) : e.OfRun := by
  have hruns := Pass.runAll_kernelFails i.graph.toGraph i.activeProfiler i.context tables
    (i.graph.operators.zip i.kernels) 0 s
  unfold runOnce at herror
  rw [if_neg (not_not_intro hhold)] at herror
  split at herror
  · rename_i hexec
    cases herror
    exact (hruns.of_error hexec).1
  · rename_i outcome s' hkernel hexec
    cases herror
    exact (hruns.of_error hexec).1

theorem runOnce_of_busy {tables : Tables}
    (hbusy : (i.runOnce tables s).1 = .error .busy ∨
      (i.runOnce tables s).1 = .error (.allocation .busy)) :
    s.hold ≠ .free ∧ i.runOnce tables s = (.error .busy, i, s) := by
  by_cases hhold : s.hold = .free
  · rcases hbusy with hbusy | hbusy
    · rcases runOnce_of_error hhold hbusy with h | ⟨_, _, _, h⟩
      · exact h.elim
      · cases h
    · rcases runOnce_of_error hhold hbusy with h | ⟨_, _, _, h⟩
      · exact h.elim
      · cases h
  · exact ⟨hhold, if_pos hhold⟩

/-- A pass does not change who holds the store. -/
theorem hold_of_allocate_ok (hs : s.Sound) (hmade : i.Made) (hstrategy : i.strategy.Sound)
    (hstate : i.state = .created) (hok : (i.allocate s).1 = .ok ()) :
    (i.allocate s).2.2.hold = .free := by
  have hcall := i.allocating hs hmade.kernels_length hstrategy
  rcases hallocate : i.allocate s with ⟨answer, i', s'⟩
  rw [hallocate] at hcall hok
  cases hcall with
  | stayed hne => exact absurd hstate (hne hok)
  | done _ hhold hc hq => exact hq.hold_eq.trans (hc.since.hold_eq.trans hhold)
  | failed => cases hok

/-- Who finds the store held has changed nothing: no pass and no run gives that answer. -/
theorem invoke_of_busy (hs : s.Sound) (hmade : i.Made) (hstrategy : i.strategy.Sound)
    (hbusy : (i.invoke s).1 = .error .busy ∨ (i.invoke s).1 = .error (.allocation .busy)) :
    (i.invoke s).2 = (i, s) := by
  cases hstate : i.state with
  | allocated tables =>
    rw [invoke_of_allocated hstate] at hbusy ⊢
    rw [(runOnce_of_busy hbusy).2]
  | failed known => rw [invoke_of_failed hstate]
  | created =>
    cases hanswer : (i.allocate s).1 with
    | ok _ =>
      exfalso
      rcases i.state_of_allocate (s := s) hstate with ⟨tables, -, hnext⟩ | ⟨e, herror, -⟩ | hheld
      · rw [invoke_of_allocate_ok hstate hanswer, invoke_of_allocated hnext] at hbusy
        exact (runOnce_of_busy hbusy).1 (hold_of_allocate_ok hs hmade hstrategy hstate hanswer)
      · rw [hanswer] at herror
        cases herror
      · rw [hheld] at hanswer
        cases hanswer
    | error e =>
      rw [invoke_of_allocate_error hstate hanswer] at hbusy ⊢
      have he : e = .busy := by
        rcases hbusy with h | h
        · cases h
        · cases h
          rfl
      subst he
      rw [allocate_of_busy hanswer]

/-! ## Tables that are known -/

/-- Allocating makes an interpreter know its tables if it is created and the pass succeeds. -/
theorem known_allocate : (i.allocate s).2.1.state.tables?.isSome ↔
    i.state.tables?.isSome ∨ i.state = .created ∧ (i.allocate s).1 = .ok () := by
  cases hstate : i.state with
  | created =>
    rcases i.state_of_allocate (s := s) hstate with ⟨tables, hok, hnext⟩ | ⟨e, herror, hnext⟩ | hheld
    · simp [hnext, hok]
    · simp [hnext, herror]
    · simp [hheld, hstate]
  | allocated tables => simp [allocate_of_allocated hstate, hstate]
  | failed known => simp [allocate_of_failed hstate, hstate]

theorem state_of_runOnce (tables : Tables) :
    (i.runOnce tables s).2.1 = i ∨
      (i.runOnce tables s).2.1 = { i with state := .failed (some tables) } := by
  by_cases hhold : s.hold = .free
  · by_cases hbreaks : i.Breaks tables s
    · exact .inr ((runOnce_of_free tables hhold).1 hbreaks)
    · exact .inl ((runOnce_of_free tables hhold).2 hbreaks)
  · left
    unfold runOnce
    rw [if_pos hhold]

/-- An allocated interpreter that runs knows its tables afterwards, even if it fails. -/
theorem known_of_allocated {tables : Tables} (hstate : i.state = .allocated tables) :
    (i.invoke s).2.1.state.tables?.isSome := by
  rw [invoke_of_allocated hstate]
  rcases i.state_of_runOnce (s := s) tables with h | h
  · rw [h, hstate]
    rfl
  · rw [h]
    rfl

theorem known_invoke : (i.invoke s).2.1.state.tables?.isSome ↔
    i.state.tables?.isSome ∨ i.state = .created ∧ (i.allocate s).1 = .ok () := by
  cases hstate : i.state with
  | created =>
    cases hanswer : (i.allocate s).1 with
    | ok _ =>
      rcases i.state_of_allocate (s := s) hstate with ⟨tables, -, hnext⟩ | ⟨e, herror, -⟩ | hheld
      · rw [invoke_of_allocate_ok hstate hanswer]
        simp [known_of_allocated hnext]
      · rw [hanswer] at herror
        cases herror
      · rw [hheld] at hanswer
        cases hanswer
    | error e =>
      have hknown := i.known_allocate (s := s)
      rw [hstate, hanswer] at hknown
      rw [invoke_of_allocate_error hstate hanswer]
      exact hknown
  | allocated tables => simp [known_of_allocated hstate]
  | failed known => simp [invoke_of_failed hstate, hstate]

/-! ## Tensors that can be had -/

theorem tensor_locates {id : Nat} {handle : Handle} (h : i.tensor s id = .ok handle) :
    ∃ tables, i.state.tables? = some tables := by
  unfold Interpreter.tensor at h
  obtain ⟨_, hloc, -⟩ := bind_ok h
  obtain ⟨tables, htables, -⟩ := locate_ok hloc
  exact ⟨tables, tables_of_tablesFor htables⟩

/-- Only an allocated interpreter hands out a tensor for writing, and no constant. -/
theorem writableTensor_locates {id : Nat} {handle : Handle}
    (h : i.writableTensor s id = .ok handle) :
    (∃ tables, i.state = .allocated tables) ∧
      ∃ t, i.graph.tensors[id]? = some t ∧ t.data = none := by
  unfold Interpreter.writableTensor at h
  obtain ⟨⟨t, span⟩, hloc, h⟩ := bind_ok h
  obtain ⟨tables, htables, ht, -⟩ := locate_ok hloc
  refine ⟨⟨tables, ?_⟩, t, ht, ?_⟩
  · unfold tablesFor at htables
    split at htables
    · rename_i hstate
      cases htables
      exact hstate
    · cases htables
    · cases htables
  · dsimp only at h
    split at h
    · cases h
    · rename_i hd
      exact Option.not_isSome_iff_eq_none.mp hd

theorem Lodged.readable {tables : Tables} {a : Allotment} (h : i.Lodged tables a s.memory)
    (hhold : s.hold ≠ .exclusive) {id : Nat} {t : Tensor} (ht : i.graph.tensors[id]? = some t)
    (hbytes : i.graph.toGraph.Stored id t ∨ t.data.isSome) :
    ∃ handle, i.tensor s id = .ok handle := by
  cases hd : t.data with
  | some data => exact ⟨_, h.tensor_constant hhold ht hd⟩
  | none =>
    have hs : i.graph.toGraph.Stored id t := by
      refine hbytes.resolve_right ?_
      rw [hd]
      nofun
    obtain ⟨span, hspan, -⟩ := h.fits.stored hs
    exact ⟨_, h.tensor_eq hhold hs hspan⟩

theorem Lodged.writable {tables : Tables} {a : Allotment} (h : i.Lodged tables a s.memory)
    (hstate : i.state = .allocated tables) (hhold : s.hold = .free) {id : Nat} {t : Tensor}
    (hs : i.graph.toGraph.Stored id t) : ∃ handle, i.writableTensor s id = .ok handle := by
  obtain ⟨span, hspan, -⟩ := h.fits.stored hs
  exact ⟨_, h.writableTensor_eq hstate hhold hs hspan⟩

/-! ## All together -/

/-- An interpreter whose tables are where it expects them is orderly. -/
theorem orderly {passed : Prop} (hs : s.Sound) (hmade : i.Made) (hstrategy : i.strategy.Sound)
    (hlodged : ∀ tables, i.state.tables? = some tables → ∃ a, i.Lodged tables a s.memory)
    (hpassed : i.state.tables?.isSome ↔ passed) : i.Orderly s passed where
  allocate_created hstate hhold := by
    rcases allocate_eq_of_pass hstate hhold with ⟨tables, hpass, h⟩ | ⟨e, hpass, -, h⟩
    · rw [hpass]
      exact h
    · rw [hpass]
      exact h
  allocate_allocated _ := allocate_of_allocated
  invoke_created hstate := by
    cases hanswer : (i.allocate s).1 with
    | ok _ =>
      rw [invoke_of_allocate_ok hstate hanswer]
      exact ⟨rfl, rfl⟩
    | error e =>
      rw [invoke_after_error hstate hanswer, invoke_of_allocate_error hstate hanswer]
      exact ⟨rfl, rfl⟩
  invoke_allocated tables hstate hhold := by
    rw [invoke_of_allocated hstate]
    exact runOnce_of_free tables hhold
  failed _ hstate := ⟨allocate_of_failed hstate, invoke_of_failed hstate⟩
  allocate_busy hbusy := by rw [allocate_of_busy hbusy]
  invoke_busy := invoke_of_busy hs hmade hstrategy
  readable id t ht hbytes hhold := by
    constructor
    · rintro ⟨handle, hread⟩
      obtain ⟨tables, htables⟩ := tensor_locates hread
      cases hstate : i.state with
      | created =>
        rw [hstate] at htables
        cases htables
      | allocated tables => exact .inl ⟨tables, rfl⟩
      | failed known => exact .inr ⟨⟨known, rfl⟩, hpassed.mp (by rw [htables]; rfl)⟩
    · intro h
      have hknown : ∃ tables, i.state.tables? = some tables := by
        rcases h with ⟨tables, hstate⟩ | ⟨-, h⟩
        · exact ⟨tables, by rw [hstate]; rfl⟩
        · exact Option.isSome_iff_exists.mp (hpassed.mpr h)
      obtain ⟨tables, htables⟩ := hknown
      obtain ⟨a, hl⟩ := hlodged tables htables
      exact hl.readable hhold ht hbytes
  writable id t ht hbytes hhold := by
    constructor
    · rintro ⟨handle, hwrite⟩
      obtain ⟨hstate, t', ht', hd⟩ := writableTensor_locates hwrite
      cases ht.symm.trans ht'
      exact ⟨hstate, hd⟩
    · rintro ⟨⟨tables, hstate⟩, hd⟩
      obtain ⟨a, hl⟩ := hlodged tables (by rw [hstate]; rfl)
      refine hl.writable hstate hhold (hbytes.resolve_right ?_)
      rw [hd]
      nofun

end Interpreter

end TensorArena
