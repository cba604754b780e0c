import TensorArena.Interpreter.Invoke
import TensorArena.Proofs.Interpreter.Runs

/-!
# Running operators

What the run of one operator does to a site, whatever the tables say: it binds, and then the kernel
runs on what was bound and what it wrote is put back. The calls of the profiler around it are quiet:
they leave the store, the blocks and the values of kernels alone.
-/

namespace TensorArena

variable {σ π : Type}

namespace Site

/-- Nothing changed but the log and the state of the profiler. -/
structure Quiet (s s' : Site σ π) : Prop where
  store_eq : s'.store = s.store
  outside_eq : s'.outside = s.outside
  granted_eq : s'.granted = s.granted
  hold_eq : s'.hold = s.hold

theorem Quiet.refl (s : Site σ π) : s.Quiet s :=
  ⟨rfl, rfl, rfl, rfl⟩

theorem Quiet.trans {s s' s'' : Site σ π} (h : s.Quiet s') (h' : s'.Quiet s'') : s.Quiet s'' :=
  ⟨h'.store_eq.trans h.store_eq, h'.outside_eq.trans h.outside_eq,
    h'.granted_eq.trans h.granted_eq, h'.hold_eq.trans h.hold_eq⟩

theorem Quiet.note (s : Site σ π) (level : Level) (text : String) : s.Quiet (s.note level text) :=
  ⟨rfl, rfl, rfl, rfl⟩

theorem Quiet.profiled {α : Type} (s : Site σ π) (f : π → α × π) : s.Quiet (s.profiled f).2 :=
  ⟨rfl, rfl, rfl, rfl⟩

/-- The operands that the site binds to an operator. -/
def bound (s : Site σ π) (g : Graph) (op : Operator) (tables : Tables) (index : Nat)
    (context : Option Int) : Except ExecutionError Operands := do
  let row ← (s.store.memory.readRow OpRow.layout tables.operators index).mapError
    ExecutionError.memory
  s.store.memory.bind g op tables row context

/-- A kernel ran from one site to another on the operands. -/
structure Ran (k : Kernel σ) (o : Operands) (outcome : Except KernelError Unit)
    (s s' : Site σ π) : Prop where
  outcome_eq : (k.invoke.run (o, s.outside)).1 = outcome
  store_eq : s'.store =
    s.store.mapMemory fun m => m.writeBack o (k.invoke.run (o, s.outside)).2.1
  outside_eq : s'.outside = (k.invoke.run (o, s.outside)).2.2
  granted_eq : s'.granted = s.granted
  hold_eq : s'.hold = s.hold

theorem Ran.quiet {k : Kernel σ} {o : Operands} {outcome : Except KernelError Unit}
    {s₀ s₁ s₂ s₃ : Site σ π} (h : Ran k o outcome s₁ s₂) (h₀ : s₀.Quiet s₁) (h₃ : s₂.Quiet s₃) :
    Ran k o outcome s₀ s₃ where
  outcome_eq := h₀.outside_eq ▸ h.outcome_eq
  store_eq := by rw [h₃.store_eq, h.store_eq, h₀.store_eq, h₀.outside_eq]
  outside_eq := by rw [h₃.outside_eq, h.outside_eq, h₀.outside_eq]
  granted_eq := h₃.granted_eq.trans (h.granted_eq.trans h₀.granted_eq)
  hold_eq := h₃.hold_eq.trans (h.hold_eq.trans h₀.hold_eq)

end Site

namespace Pass

variable {ε : Type}

theorem startEvent_runs (s : Site σ π) (profiler : Option (Profiler π)) (tag : String) :
    (startEvent profiler tag : Pass σ π ε (Option Nat)).Runs s (fun _ s' => s.Quiet s')
      (fun _ _ => False) := by
  cases profiler with
  | none => exact .of_pure (.refl s)
  | some p =>
    refine .get_bind ?_
    split
    · exact .note_bind (.of_pure (.note ..))
    · refine .modifyGet_bind ?_
      have hquiet := Site.Quiet.profiled s (p.start tag)
      split
      · exact .of_pure hquiet
      · exact .note_bind (.of_pure (hquiet.trans (.note ..)))

theorem stopEvent_runs (s : Site σ π) (profiler : Option (Profiler π)) (event : Option Nat) :
    (stopEvent profiler event : Pass σ π ε Unit).Runs s (fun _ s' => s.Quiet s')
      (fun _ _ => False) := by
  unfold stopEvent
  split
  · rename_i p event
    refine .get_bind ?_
    split
    · exact .of_note (.note ..)
    · refine .modifyGet_bind ?_
      have hquiet := Site.Quiet.profiled s (p.stop event)
      split
      · exact .of_pure hquiet
      · exact .of_note (hquiet.trans (.note ..))
  · exact .of_pure (.refl s)

theorem runKernel_runs (s : Site σ π) (k : Kernel σ) (o : Operands) :
    (runKernel k o : Pass σ π ε (Except KernelError Unit)).Runs s
      (fun outcome s' => Site.Ran k o outcome s s') (fun _ _ => False) :=
  ⟨rfl, rfl, rfl, rfl, rfl⟩

theorem bindOperator_runs (s : Site σ π) (g : Graph) (op : Operator) (tables : Tables)
    (index : Nat) (context : Option Int) :
    (bindOperator g op tables index context : Pass σ π ExecutionError Operands).Runs s
      (fun o s' => s.bound g op tables index context = .ok o ∧ s' = s)
      (fun e s' => s.bound g op tables index context = .error e ∧ s' = s) := by
  unfold Site.bound
  refine .get_bind (.lift_bind (fun row hrow => ?_) fun e he => ?_)
  · rw [hrow]
    exact .of_lift (fun o ho => ⟨ho, rfl⟩) fun e he => ⟨he, rfl⟩
  · rw [he]
    exact ⟨rfl, rfl⟩

/-- One operator: it binds and its kernel runs, or it does not bind and nothing happens. -/
theorem runOperator_runs (s : Site σ π) (g : Graph) (profiler : Option (Profiler π))
    (context : Option Int) (tables : Tables) (index : Nat) (op : Operator) (k : Kernel σ) :
    (runOperator g profiler context tables index op k).Runs s
      (fun _ s' => ∃ o, s.bound g op tables index context = .ok o ∧ Site.Ran k o (.ok ()) s s')
      (fun e s' => s.bound g op tables index context = .error e ∧ s' = s ∨
        ∃ o cause, s.bound g op tables index context = .ok o ∧ e = .kernel index op.name cause ∧
          Site.Ran k o (.error cause) s s') := by
  refine ((bindOperator_runs s g op tables index context).mono (fun _ _ h => h)
    fun _ _ h => .inl h).bind ?_
  rintro o _ ⟨hbound, rfl⟩
  refine ((startEvent_runs _ profiler op.name).mono (fun _ _ h => h) fun _ _ h => h.elim).bind
    fun event s₁ h₁ => ?_
  refine ((runKernel_runs s₁ k o).mono (fun _ _ h => h) fun _ _ h => h.elim).bind
    fun outcome s₂ h₂ => ?_
  refine ((stopEvent_runs s₂ profiler event).mono (fun _ _ h => h) fun _ _ h => h.elim).bind
    fun _ s₃ h₃ => ?_
  have hran := h₂.quiet h₁ h₃
  cases outcome with
  | ok _ => exact .of_pure ⟨o, hbound, hran⟩
  | error cause => exact .of_throw (.inr ⟨o, cause, hbound, rfl, hran⟩)

/-- The loop over the operators keeps what the run of every single one keeps. -/
theorem runAll_runs {g : Graph} {profiler : Option (Profiler π)} {context : Option Int}
    {tables : Tables} {pairs : List (Operator × Kernel σ)} {index : Nat} {s : Site σ π}
    (inv : Nat → Site σ π → Prop) {err : ExecutionError → Site σ π → Prop}
    (hstep : ∀ j op k s, pairs[j]? = some (op, k) → inv (index + j) s →
      (runOperator g profiler context tables (index + j) op k).Runs s
        (fun _ s' => inv (index + j + 1) s') err)
    (h : inv index s) :
    (runAll g profiler context tables pairs index).Runs s
      (fun _ s' => inv (index + pairs.length) s') err := by
  induction pairs generalizing index s with
  | nil => exact .of_pure h
  | cons p rest ih =>
    obtain ⟨op, k⟩ := p
    refine (hstep 0 op k s rfl h).bind fun _ s₁ h₁ => ?_
    refine (ih ?_ h₁).mono (fun _ s' h' => ?_) fun _ _ h' => h'
    · intro j op k s hj hinv
      have hnext := hstep (j + 1) op k s hj
      rw [show index + (j + 1) = index + 1 + j by omega] at hnext
      exact hnext hinv
    · rw [List.length_cons, show index + (rest.length + 1) = index + 1 + rest.length by omega]
      exact h'

end Pass

end TensorArena
