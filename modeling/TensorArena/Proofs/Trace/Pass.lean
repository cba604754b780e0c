import TensorArena.Proofs.Interpreter.Reach
import TensorArena.Proofs.Interpreter.States
import TensorArena.Proofs.Trace.Kernel

/-!
# What calls on an interpreter leave in the trace

An allocation pass sweeps over the kernels to prepare them, and if it succeeds the sweep is whole; a
run of the operators sweeps over them to invoke them. Everything else that a pass does is silent.
-/

namespace TensorArena

variable {σ π : Type}

/-- The operands that are bound to an operator name it. -/
theorem Site.operator_of_bound {s : Site σ π} {g : Graph} {op : Operator} {tables : Tables}
    {index : Nat} {context : Option Int} {o : Operands}
    (h : s.bound g op tables index context = .ok o) : o.operator = op := by
  obtain ⟨row, -, hbind⟩ := bind_ok h
  obtain ⟨b, -, -, -, -, -, rfl⟩ := Memory.bind_eq_ok_iff.mp hbind
  rfl

namespace Pass

/-! ## Preparing -/

variable {s : Site (σ × Trace) π}

theorem prepare_trace (g : Graph) (op : Operator) (k : Kernel σ) (number : Nat) :
    (prepare g op (k.watched number) : Pass (σ × Trace) π AllocationError Grant).Runs s
      (fun _ s' => s'.trace = s.trace ++ [.called .prepare number op,
        .returned .prepare number true])
      (fun _ s' => s'.trace = s.trace ++ [.called .prepare number op,
        .returned .prepare number false]) := by
  have htrace := k.watched_prepare number (.of g op) s
  unfold Runs exec prepare
  simp only [ExceptT.run_mk, StateT.run]
  cases h : ((k.watched number).prepare (.of g op)).run {} s with
  | mk answer s' =>
    rw [h] at htrace
    cases answer with
    | ok grant => exact htrace
    | error e => exact htrace

/-- Kernels are prepared in order, each at most once, up to the first one that fails. -/
theorem prepareAll_trace (g : Graph) (ops : List Operator) (ks : List (Kernel σ))
    (hlen : ks.length = ops.length) (number index first : Nat) :
    (prepareAll g (ops.zip (watchedFrom number ks)) index first :
      Pass (σ × Trace) π AllocationError (List OpRow × List Lifetime)).Runs s
      (fun _ s' => s'.trace = s.trace ++ sweepAll .prepare number ops)
      (fun _ s' => ∃ failed events, Sweep .prepare number ops failed events ∧
        s'.trace = s.trace ++ events) := by
  induction ops generalizing ks number index first s with
  | nil => exact .of_pure (List.append_nil _).symm
  | cons op rest ih =>
    cases ks with
    | nil => cases hlen
    | cons k ks =>
      have hafter : ∀ {events : Trace} {s₁ s' : Site (σ × Trace) π},
          s₁.trace = s.trace ++ [.called .prepare number op, .returned .prepare number true] →
          s'.trace = s₁.trace ++ events →
          s'.trace = s.trace ++
            .called .prepare number op :: .returned .prepare number true :: events := by
        intro events s₁ s' h₁ h'
        rw [h', h₁, List.append_assoc]
        rfl
      refine ((prepare_trace g op k number).mono (fun _ _ h => h) fun _ s' h => ?_).bind
        fun grant s₁ h₁ => .lift_bind (fun userData _ => ?_) fun _ _ => ?_
      · exact ⟨_, _, .ill, h⟩
      · refine Runs.bind ((ih ks (Nat.succ.inj hlen) ..).mono (fun _ _ h => h) ?_)
          fun rows s₂ h₂ => .of_pure (hafter h₁ h₂)
        rintro e s' ⟨failed, events, hsweep, h'⟩
        exact ⟨failed, _, .well hsweep, hafter h₁ h'⟩
      · exact ⟨_, _, .well .stop, h₁⟩

/-- A pass sweeps over the kernels to prepare them; a successful one leaves none out. -/
theorem commit_trace (g : Graph) (ks : List (Kernel σ)) (hlen : ks.length = g.operators.length)
    (strategy : Strategy) :
    (commit g (watchedFrom 0 ks) strategy : Pass (σ × Trace) π AllocationError Tables).Runs s
      (fun _ s' => s'.trace = s.trace ++ sweepAll .prepare 0 g.operators)
      (fun _ s' => ∃ failed events, Sweep .prepare 0 g.operators failed events ∧
        s'.trace = s.trace ++ events) := by
  have hreserve : ∀ size category, (reserve .tail size category).Runs s.rewind
      (fun _ s' => s'.trace = s.trace)
      (fun _ s' => ∃ failed events, Sweep .prepare 0 g.operators failed events ∧
        s'.trace = s.trace ++ events) := by
    refine fun size category => ((reserve_plain ..).runs s.rewind).mono
      (fun _ _ h => congrArg Prod.snd h) fun _ s' h => ?_
    exact ⟨false, [], .stop, (congrArg Prod.snd h.2).trans (List.append_nil _).symm⟩
  refine .modify_bind ((hreserve _ _).bind fun operators s₁ h₁ => ?_)
  rw [← h₁]
  refine (prepareAll_trace g g.operators ks hlen 0 0 0).bind fun rows s₂ h₂ => ?_
  -- From here on no kernel is called, whether or not the pass succeeds.
  refine ((commitRest_plain g strategy operators rows.1 rows.2).runs s₂).mono
    (fun _ s' h => ?_) fun _ s' h => ?_
  · exact (congrArg Prod.snd h).trans h₂
  · exact ⟨_, _, sweep_sweepAll .., (congrArg Prod.snd h.2).trans h₂⟩

/-! ## Running -/

/-- Whether a run ended with a kernel that failed. -/
def failedKernel : Except ExecutionError Unit → Bool
  | .error (.kernel ..) => true
  | _ => false

theorem failedKernel_of_ofBinding {e : ExecutionError} (h : e.OfBinding) :
    failedKernel (.error e) = false := by
  cases e with
  | kernel => exact h.elim
  | _ => rfl

theorem runOperator_trace (g : Graph) (profiler : Option (Profiler π)) (context : Option Int)
    (tables : Tables) (index : Nat) (op : Operator) (k : Kernel σ) (number : Nat) :
    (runOperator g profiler context tables index op (k.watched number)).Runs s
      (fun _ s' => s'.trace = s.trace ++ [.called .invoke number op,
        .returned .invoke number true])
      (fun e s' => failedKernel (.error e) = false ∧ s'.trace = s.trace ∨
        failedKernel (.error e) = true ∧ s'.trace = s.trace ++ [.called .invoke number op,
          .returned .invoke number false]) := by
  have hran : ∀ {o outcome} {s' : Site (σ × Trace) π},
      s.bound g op tables index context = .ok o → Site.Ran (k.watched number) o outcome s s' →
        s'.trace = s.trace ++ [.called .invoke number op,
          .returned .invoke number (endedWell outcome)] := by
    intro o outcome s' hbound hran
    rw [Site.trace, hran.outside_eq, Kernel.watched_invoke, hran.outcome_eq,
      Site.operator_of_bound hbound]
    rfl
  refine (runOperator_runs s g profiler context tables index op (k.watched number)).mono ?_ ?_
  · rintro - s' ⟨o, hbound, h⟩
    exact hran hbound h
  · rintro e s' (⟨hbound, rfl⟩ | ⟨o, cause, hbound, rfl, h⟩)
    · exact .inl ⟨failedKernel_of_ofBinding (Site.bound_ofBinding hbound), rfl⟩
    · exact .inr ⟨rfl, hran hbound h⟩

/-- What a run of the operators leaves: a sweep that ends in a failure exactly when the run does so. -/
def Swept (ops : List Operator) (number : Nat) (before : Trace) (outcome : Except ExecutionError Unit)
    (after : Trace) : Prop :=
  ∃ events, Sweep .invoke number ops (failedKernel outcome) events ∧ after = before ++ events

theorem Swept.stop {ops : List Operator} {number : Nat} {before : Trace}
    {outcome : Except ExecutionError Unit} (h : failedKernel outcome = false) :
    Swept ops number before outcome before := by
  refine ⟨[], ?_, (List.append_nil _).symm⟩
  rw [h]
  exact .stop

theorem Swept.well {op : Operator} {rest : List Operator} {number : Nat} {before after : Trace}
    {outcome : Except ExecutionError Unit}
    (h : Swept rest (number + 1)
      (before ++ [.called .invoke number op, .returned .invoke number true]) outcome after) :
    Swept (op :: rest) number before outcome after := by
  obtain ⟨events, hsweep, rfl⟩ := h
  exact ⟨_, .well hsweep, List.append_assoc ..⟩

/-- Operators run in order, each kernel at most once, up to the first one that fails. -/
theorem runAll_trace (g : Graph) (profiler : Option (Profiler π)) (context : Option Int)
    (tables : Tables) (ops : List Operator) (ks : List (Kernel σ)) (number index : Nat) :
    (runAll g profiler context tables (ops.zip (watchedFrom number ks)) index).Runs s
      (fun _ s' => Swept ops number s.trace (.ok ()) s'.trace)
      (fun e s' => Swept ops number s.trace (.error e) s'.trace) := by
  induction ops generalizing ks number index s with
  | nil => exact .of_pure (.stop rfl)
  | cons op rest ih =>
    cases ks with
    | nil => exact .of_pure (.stop rfl)
    | cons k ks =>
      refine ((runOperator_trace g profiler context tables index op k number).mono
        (fun _ _ h => h) fun e s' h => ?_).bind fun _ s₁ h₁ => ?_
      · rcases h with ⟨hbinding, h⟩ | ⟨hkernel, h⟩
        · rw [h]
          exact .stop hbinding
        · refine ⟨_, ?_, h⟩
          rw [hkernel]
          exact .ill
      · have hrest := ih (s := s₁) ks (number + 1) (index + 1)
        rw [h₁] at hrest
        exact hrest.mono (fun _ _ h => h.well) fun _ _ h => h.well

end Pass

end TensorArena
