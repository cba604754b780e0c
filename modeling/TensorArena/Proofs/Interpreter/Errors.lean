import TensorArena.Interpreter.Commit
import TensorArena.Proofs.Graph.Checked
import TensorArena.Proofs.Interpreter.Running

/-!
# Where errors come from

An allocation pass never ends with the two errors that speak about the state of an interpreter or its
store: those are answers of the calls alone. In the same way binding never ends with the error of a
kernel. The steps of a pass that call no kernel are `Plain`, and the rule for `bind` carries that over to
all that is made of them.
-/

namespace TensorArena

variable {σ π ε α β : Type}

/-- The first part fails, or it succeeds and the rest fails. -/
theorem bind_error {x : Except ε α} {f : α → Except ε β} {e : ε} (h : (x >>= f) = .error e) :
    x = .error e ∨ ∃ a, x = .ok a ∧ f a = .error e := by
  cases x with
  | error e' =>
    cases h
    exact .inl rfl
  | ok a => exact .inr ⟨a, rfl, h⟩

theorem mapM_error {f : α → Except ε β} {l : List α} {e : ε} (h : l.mapM f = .error e) :
    ∃ a ∈ l, f a = .error e := by
  induction l with
  | nil => cases h
  | cons a rest ih =>
    rw [List.mapM_cons] at h
    rcases bind_error h with ha | ⟨b, -, h⟩
    · exact ⟨a, List.mem_cons_self, ha⟩
    · rcases bind_error h with hrest | ⟨bs, -, h⟩
      · obtain ⟨a', ha', he⟩ := ih hrest
        exact ⟨a', List.mem_cons_of_mem _ ha', he⟩
      · cases h

theorem mapError_error {ε' : Type} {x : Except ε α} {f : ε → ε'} {e : ε'}
    (h : x.mapError f = .error e) : ∃ e', x = .error e' ∧ f e' = e := by
  cases x with
  | ok a => cases h
  | error e' =>
    cases h
    exact ⟨e', rfl, rfl⟩

/-! ## Passes -/

/-- An error that an allocation pass may end with. The others tell that there was no pass. -/
def AllocationError.OfPass : AllocationError → Prop
  | .busy | .failed => False
  | _ => True

namespace Pass

/-- The pass calls no kernel: it leaves the values outside the arena alone, and if it fails it is with
an error of its own. -/
structure Plain (p : Pass σ π AllocationError α) : Prop where
  runs : ∀ s, p.Runs s (fun _ s' => s'.outside = s.outside)
    fun e s' => e.OfPass ∧ s'.outside = s.outside

theorem Plain.bind {p : Pass σ π AllocationError α} {f : α → Pass σ π AllocationError β}
    (hp : p.Plain) (hf : ∀ a, (f a).Plain) : (p >>= f).Plain :=
  ⟨fun s => (hp.runs s).bind fun a s' hs' => ((hf a).runs s').mono
    (fun _ _ h => h.trans hs') fun _ _ h => ⟨h.1, h.2.trans hs'⟩⟩

theorem Plain.of_pure (a : α) : (Pure.pure a : Pass σ π AllocationError α).Plain :=
  ⟨fun _ => rfl⟩

theorem Plain.of_lift {x : Except AllocationError α} (h : ∀ e, x = .error e → e.OfPass) :
    (liftExcept x : Pass σ π AllocationError α).Plain :=
  ⟨fun _ => .of_lift (fun _ _ => rfl) fun e he => ⟨h e he, rfl⟩⟩

theorem Plain.of_note (level : Level) (text : String) :
    (note level text : Pass σ π AllocationError Unit).Plain :=
  ⟨fun _ => rfl⟩

theorem Plain.of_mapMemory (f : Memory → Memory) :
    (modify fun s => s.mapMemory f : Pass σ π AllocationError PUnit).Plain :=
  ⟨fun _ => rfl⟩

theorem Plain.get_bind {f : Site σ π → Pass σ π AllocationError β} (hf : ∀ s, (f s).Plain) :
    ((MonadState.get : Pass σ π AllocationError (Site σ π)) >>= f).Plain :=
  ⟨fun s => (hf s).runs s⟩

theorem Plain.of_mapM {f : α → Pass σ π AllocationError β} (hf : ∀ a, (f a).Plain) (l : List α) :
    (l.mapM f).Plain := by
  induction l with
  | nil => exact .of_pure []
  | cons a rest ih =>
    rw [List.mapM_cons]
    exact (hf a).bind fun b => ih.bind fun bs => .of_pure _

theorem reserve_plain (region : Region) (size : Nat) (category : Category) :
    (reserve region size category : Pass σ π AllocationError Nat).Plain := by
  refine ⟨fun s => ?_⟩
  have houtside : (s.allocate region size category).2.outside = s.outside := by
    unfold Site.allocate Site.request
    split
    · rfl
    · rfl
  unfold Runs exec reserve
  simp only [ExceptT.run_mk, StateT.run]
  cases h : s.allocate region size category with
  | mk answer s' =>
    rw [h] at houtside
    cases answer with
    | ok offset => exact houtside
    | error e => exact ⟨trivial, houtside⟩

theorem commitTable_plain {γ : Type} (layout : Layout γ) (table : Nat) (rows : List γ) :
    (commitTable layout table rows : Pass σ π AllocationError Unit).Plain := by
  refine ⟨fun s => ?_⟩
  unfold Runs exec commitTable changeMemory
  simp only [ExceptT.run_mk, StateT.run]
  cases h : s.store.memory.writeTable layout table rows with
  | ok m => rfl
  | error e => exact ⟨trivial, rfl⟩

theorem spanMake_ofPass {offset length : Nat} {e : AllocationError}
    (h : Span.make offset length = .error e) : e.OfPass := by
  unfold Span.make at h
  split at h
  · cases h
    trivial
  · split at h
    · cases h
      trivial
    · cases h

theorem reserveVariable_plain (t : Tensor) :
    (reserveVariable t : Pass σ π AllocationError Span).Plain := by
  unfold reserveVariable
  split
  · exact (reserve_plain ..).bind fun offset =>
      (Plain.of_mapMemory _).bind fun _ => .of_lift fun e he => spanMake_ofPass he
  · exact .of_pure _

theorem plan_plain (strategy : Strategy) (lifetimes : List Lifetime) (room : Nat) :
    (plan strategy lifetimes room : Pass σ π AllocationError Plan).Plain := by
  unfold plan
  refine Plain.bind (.of_lift fun e he => ?_) fun p => ?_
  · obtain ⟨cause, -, rfl⟩ := mapError_error he
    trivial
  · split
    · exact (Plain.of_note _ _).bind fun _ => .of_pure p
    · exact .of_pure p

theorem enterSpans_ofPass {base : Nat} {spans : List Span} {ps : List Placement}
    {e : AllocationError} (h : enterSpans base spans ps = .error e) : e.OfPass := by
  induction ps generalizing spans with
  | nil => cases h
  | cons p rest ih =>
    unfold enterSpans at h
    split at h
    · exact ih h
    · split at h
      · exact ih h
      · rename_i hspan
        cases h
        exact spanMake_ofPass hspan

theorem placeActivations_plain (g : Graph) (strategy : Strategy) (spans : List Span) :
    (placeActivations g strategy spans : Pass σ π AllocationError (List Span)).Plain := by
  refine .get_bind fun s => (plan_plain ..).bind fun p => ?_
  have hrest : ∀ base, (do
      let spans ← liftExcept (enterSpans base spans p.placements)
      note .debug s!"'{g.name}' activations: {p.summary}"
      pure spans : Pass σ π AllocationError (List Span)).Plain :=
    fun base => Plain.bind (.of_lift fun e he => enterSpans_ofPass he) fun spans =>
      (Plain.of_note _ _).bind fun _ => .of_pure spans
  by_cases hpeak : 0 < p.peak
  · rw [if_pos hpeak]
    exact (reserve_plain ..).bind hrest
  · rw [if_neg hpeak]
    exact (Plain.of_pure 0).bind hrest

theorem placeScratch_plain (g : Graph) (strategy : Strategy) (lifetimes : List Lifetime) :
    (placeScratch g strategy lifetimes : Pass σ π AllocationError Nat).Plain := by
  unfold placeScratch
  split
  · exact .of_pure 0
  · refine (reserve_plain ..).bind fun table => .get_bind fun s => (plan_plain ..).bind fun p =>
      (reserve_plain ..).bind fun base => Plain.bind (.of_lift fun e he => ?_) fun rows =>
      (commitTable_plain ..).bind fun _ => (Plain.of_note _ _).bind fun _ => .of_pure table
    obtain ⟨placement, -, he⟩ := mapM_error he
    exact spanMake_ofPass he

/-- Once all kernels are prepared, the rest of the pass calls none. -/
theorem commitRest_plain (g : Graph) (strategy : Strategy) (operators : Nat) (rows : List OpRow)
    (lifetimes : List Lifetime) :
    (do
      let tensors ← reserve .tail (g.tensors.length * Span.layout.size) .evalTensorData
      let spans ← g.tensors.mapM reserveVariable
      let spans ← placeActivations g strategy spans
      let scratch ← placeScratch g strategy lifetimes
      commitTable OpRow.layout operators rows
      commitTable Span.layout tensors spans
      pure ⟨operators, tensors, scratch⟩ : Pass σ π AllocationError Tables).Plain :=
  (reserve_plain ..).bind fun _ => (Plain.of_mapM reserveVariable_plain _).bind fun _ =>
    (placeActivations_plain ..).bind fun _ => (placeScratch_plain ..).bind fun _ =>
    (commitTable_plain ..).bind fun _ => (commitTable_plain ..).bind fun _ => .of_pure _

theorem userSpan_ofPass {userData : Option ByteRange} {e : AllocationError}
    (h : userSpan userData = .error e) : e.OfPass := by
  unfold userSpan at h
  split at h
  · exact spanMake_ofPass h
  · cases h

theorem prepare_ofPass (g : Graph) (op : Operator) (k : Kernel σ) (s : Site σ π) :
    (prepare g op k).Runs s (fun _ _ => True) fun e _ => e.OfPass := by
  unfold Runs exec prepare
  simp only [ExceptT.run_mk, StateT.run]
  cases h : (k.prepare (.of g op)).run {} s with
  | mk answer s' =>
    cases answer with
    | ok grant => trivial
    | error e =>
      cases e with
      | memory cause => trivial
      | _ => trivial

theorem prepareAll_ofPass (g : Graph) (pairs : List (Operator × Kernel σ)) (index first : Nat)
    (s : Site σ π) :
    (prepareAll g pairs index first).Runs s (fun _ _ => True) fun e _ => e.OfPass := by
  induction pairs generalizing index first s with
  | nil => trivial
  | cons p rest ih =>
    obtain ⟨op, k⟩ := p
    refine (prepare_ofPass g op k s).bind fun grant s₁ _ => .lift_bind (fun userData _ => ?_)
      fun e he => userSpan_ofPass he
    exact (ih ..).bind fun rows s₂ _ => .of_pure trivial

theorem commit_ofPass (g : Graph) (kernels : List (Kernel σ)) (strategy : Strategy)
    (s : Site σ π) :
    (commit g kernels strategy).Runs s (fun _ _ => True) fun e _ => e.OfPass := by
  refine .modify_bind ?_
  refine (((reserve_plain ..).runs _).mono (fun _ _ h => h) fun _ _ h => h.1).bind
    fun operators s₁ _ => (prepareAll_ofPass ..).bind fun rows s₂ _ => ?_
  exact ((commitRest_plain g strategy operators rows.1 rows.2).runs s₂).mono (fun _ _ _ => trivial)
    fun _ _ h => h.1

end Pass

/-! ## Binding -/

/-- An error that binding may end with. With `scratchCount` the program ends, so what is said of
these errors is of use for the others. -/
def ExecutionError.OfBinding : ExecutionError → Prop
  | .unplaced _ | .memory _ | .scratchCount _ => True
  | _ => False

namespace Memory

variable {m : Memory} {g : Graph} {tables : Tables} {e : ExecutionError}

theorem tensorRange_ofBinding {id : Nat} (h : m.tensorRange tables id = .error e) :
    e.OfBinding := by
  unfold tensorRange at h
  split at h
  · cases h
    trivial
  · split at h
    · cases h
    · cases h
      trivial

theorem map_ofBinding {x : Except ExecutionError α} {f : α → β}
    (hx : ∀ e, x = .error e → e.OfBinding) (h : x.map f = .error e) : e.OfBinding := by
  cases x with
  | ok a => cases h
  | error e' =>
    cases h
    exact hx _ rfl

theorem inputSource_ofBinding {operand : Option Nat}
    (h : m.inputSource g tables operand = .error e) : e.OfBinding := by
  unfold inputSource at h
  split at h
  · cases h
  · split at h
    · cases h
      trivial
    · split at h
      · cases h
      · exact map_ofBinding (fun _ => tensorRange_ofBinding) h

theorem outputSource_ofBinding {operand : Option Nat}
    (h : m.outputSource g tables operand = .error e) : e.OfBinding := by
  unfold outputSource at h
  split at h
  · cases h
  · split at h
    · cases h
      trivial
    · exact map_ofBinding (fun _ => tensorRange_ofBinding) h

theorem scratchRanges_ofBinding {row : OpRow} (h : m.scratchRanges tables row = .error e) :
    e.OfBinding := by
  unfold scratchRanges at h
  rcases bind_error h with h | ⟨spans, -, h⟩
  · obtain ⟨k, -, h⟩ := mapM_error h
    obtain ⟨cause, -, rfl⟩ := mapError_error h
    trivial
  · split at h
    · cases h
      trivial
    · cases h

theorem bind_ofBinding {op : Operator} {row : OpRow} {context : Option Int}
    (h : m.bind g op tables row context = .error e) : e.OfBinding := by
  unfold Memory.bind at h
  rcases bind_error h with h | ⟨b, -, h⟩
  · unfold sources at h
    rcases bind_error h with h | ⟨inputs, -, h⟩
    · obtain ⟨operand, -, h⟩ := mapM_error h
      exact inputSource_ofBinding h
    · rcases bind_error h with h | ⟨outputs, -, h⟩
      · obtain ⟨operand, -, h⟩ := mapM_error h
        exact outputSource_ofBinding h
      · rcases bind_error h with h | ⟨scratch, -, h⟩
        · exact scratchRanges_ofBinding h
        · cases h
  · rcases bind_error h with h | ⟨_, -, h⟩
    · obtain ⟨cause, -, rfl⟩ := mapError_error h
      trivial
    · split at h
      · cases h
        trivial
      · cases h

end Memory

/-- What cannot be bound is told so, and never looks like the failure of a kernel. -/
theorem Site.bound_ofBinding {s : Site σ π} {g : Graph} {op : Operator} {tables : Tables}
    {index : Nat} {context : Option Int} {e : ExecutionError}
    (h : s.bound g op tables index context = .error e) : e.OfBinding := by
  rcases bind_error h with h | ⟨row, -, h⟩
  · obtain ⟨cause, -, rfl⟩ := mapError_error h
    trivial
  · exact Memory.bind_ofBinding h

end TensorArena
