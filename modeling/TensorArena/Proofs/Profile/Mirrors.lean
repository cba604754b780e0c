import TensorArena.Interpreter.Commit
import TensorArena.Proofs.Interpreter.Running

/-!
# Passes that do not see the profiler

Two sites are `Alike` when they differ in their logs and in the states of their profilers only, and
those states are related. Passes on sites with different profilers mirror each other when they give
the same answer on sites that are alike, and leave them alike. The relation is left open: with one
that holds of everything, the state of the profiler has no influence; with one that fixes a state,
it is left as it was.

There is one rule for each way of making a pass. The allocation pass is made in these ways only, so it
mirrors itself.
-/

namespace TensorArena

variable {σ π π' ε α β : Type} {R : π → π' → Prop}

/-- The same but for the log and the profiler, whose states are related. -/
structure Site.Alike (R : π → π' → Prop) (s : Site σ π) (s' : Site σ π') : Prop where
  store_eq : s'.store = s.store
  hold_eq : s'.hold = s.hold
  outside_eq : s'.outside = s.outside
  granted_eq : s'.granted = s.granted
  profile : R s.profile s'.profile

namespace Site.Alike

variable {s : Site σ π} {s' : Site σ π'}

/-- The logs may get different lines. -/
theorem note (h : s.Alike R s') {level level' : Level} {text text' : String} :
    (s.note level text).Alike R (s'.note level' text') :=
  ⟨h.store_eq, h.hold_eq, h.outside_eq, h.granted_eq, h.profile⟩

theorem rewind (h : s.Alike R s') : s.rewind.Alike R s'.rewind :=
  ⟨congrArg Store.resetHead h.store_eq, h.hold_eq, h.outside_eq, h.granted_eq, h.profile⟩

theorem mapMemory (h : s.Alike R s') (f : Memory → Memory) :
    (s.mapMemory f).Alike R (s'.mapMemory f) :=
  ⟨congrArg (Store.mapMemory f) h.store_eq, h.hold_eq, h.outside_eq, h.granted_eq, h.profile⟩

theorem withOutside (h : s.Alike R s') (outside : σ) :
    ({ s with outside } : Site σ π).Alike R { s' with outside } :=
  ⟨h.store_eq, h.hold_eq, rfl, h.granted_eq, h.profile⟩

theorem request (h : s.Alike R s') (region : Region) (size align : Nat) (category : Category) :
    (s.request region size align category).1 = (s'.request region size align category).1 ∧
      (s.request region size align category).2.Alike R
        (s'.request region size align category).2 := by
  unfold Site.request
  rw [h.store_eq]
  split
  · exact ⟨rfl, rfl, h.hold_eq, h.outside_eq, by simp [h.granted_eq], h.profile⟩
  · exact ⟨rfl, rfl, h.hold_eq, h.outside_eq, h.granted_eq, h.profile⟩

end Site.Alike

namespace Pass

/-- On sites that are alike the two passes answer the same and leave the sites alike. -/
structure Mirrors (R : π → π' → Prop) (p : Pass σ π ε α) (p' : Pass σ π' ε α) : Prop where
  runs : ∀ s s', s.Alike R s' →
    (p.exec s).1 = (p'.exec s').1 ∧ (p.exec s).2.Alike R (p'.exec s').2

theorem Mirrors.of_pure (a : α) :
    Mirrors R (Pure.pure a : Pass σ π ε α) (Pure.pure a : Pass σ π' ε α) :=
  ⟨fun _ _ h => ⟨rfl, h⟩⟩

theorem Mirrors.of_lift (x : Except ε α) :
    Mirrors R (liftExcept x : Pass σ π ε α) (liftExcept x : Pass σ π' ε α) := by
  refine ⟨fun s s' h => ?_⟩
  cases x with
  | ok a => exact ⟨rfl, h⟩
  | error e => exact ⟨rfl, h⟩

theorem Mirrors.of_note (level : Level) (text : String) :
    Mirrors R (note level text : Pass σ π ε Unit) (note level text : Pass σ π' ε Unit) :=
  ⟨fun _ _ h => ⟨rfl, h.note⟩⟩

theorem Mirrors.of_modify {f : Site σ π → Site σ π} {f' : Site σ π' → Site σ π'}
    (hf : ∀ s s', s.Alike R s' → (f s).Alike R (f' s')) :
    Mirrors R (modify f : Pass σ π ε PUnit) (modify f' : Pass σ π' ε PUnit) :=
  ⟨fun s s' h => ⟨rfl, hf s s' h⟩⟩

theorem Mirrors.bind {p : Pass σ π ε α} {p' : Pass σ π' ε α} {f : α → Pass σ π ε β}
    {f' : α → Pass σ π' ε β} (hp : p.Mirrors R p') (hf : ∀ a, (f a).Mirrors R (f' a)) :
    (p >>= f).Mirrors R (p' >>= f') := by
  refine ⟨fun s s' h => ?_⟩
  obtain ⟨hanswer, halike⟩ := hp.runs s s' h
  rw [exec_bind, exec_bind]
  rcases hrun : p.exec s with ⟨answer, t⟩
  rcases hrun' : p'.exec s' with ⟨answer', t'⟩
  rw [hrun, hrun'] at hanswer halike
  obtain rfl : answer = answer' := hanswer
  cases answer with
  | ok a => exact (hf a).runs t t' halike
  | error e => exact ⟨rfl, halike⟩

/-- Reading the site is no danger as long as the store is all that is used of it. -/
theorem Mirrors.get_bind {f : Site σ π → Pass σ π ε β} {f' : Site σ π' → Pass σ π' ε β}
    (hf : ∀ s s', s.store = s'.store → (f s).Mirrors R (f' s')) :
    ((MonadState.get : Pass σ π ε (Site σ π)) >>= f).Mirrors R
      ((MonadState.get : Pass σ π' ε (Site σ π')) >>= f') :=
  ⟨fun s s' h => (hf s s' h.store_eq.symm).runs s s' h⟩

theorem Mirrors.of_mapM {f : α → Pass σ π ε β} {f' : α → Pass σ π' ε β}
    (hf : ∀ a, (f a).Mirrors R (f' a)) (l : List α) : (l.mapM f).Mirrors R (l.mapM f') := by
  induction l with
  | nil => exact .of_pure []
  | cons a rest ih =>
    rw [List.mapM_cons, List.mapM_cons]
    exact (hf a).bind fun b => ih.bind fun bs => .of_pure _

/-! ## The steps of the allocation pass -/

theorem reserve_mirrors (region : Region) (size : Nat) (category : Category) :
    Mirrors R (reserve region size category : Pass σ π AllocationError Nat)
      (reserve region size category : Pass σ π' AllocationError Nat) := by
  refine ⟨fun s s' h => ?_⟩
  obtain ⟨hanswer, halike⟩ := h.request region size arenaAlignment category
  unfold exec reserve
  simp only [ExceptT.run_mk, StateT.run, Site.allocate]
  rcases hrun : s.request region size arenaAlignment category with ⟨answer, t⟩
  rcases hrun' : s'.request region size arenaAlignment category with ⟨answer', t'⟩
  rw [hrun, hrun'] at hanswer halike
  obtain rfl : answer = answer' := hanswer
  cases answer with
  | ok offset => exact ⟨rfl, halike⟩
  | error e => exact ⟨rfl, halike⟩

theorem changeMemory_mirrors (f : Memory → Except ε Memory) :
    Mirrors R (changeMemory f : Pass σ π ε Unit) (changeMemory f : Pass σ π' ε Unit) := by
  refine ⟨fun s s' h => ?_⟩
  unfold exec changeMemory
  simp only [ExceptT.run_mk, StateT.run, h.store_eq]
  cases f s.store.memory with
  | ok m => exact ⟨rfl, h.mapMemory fun _ => m⟩
  | error e => exact ⟨rfl, h⟩

/-- A kernel that prepares itself sees the store and the values outside, and no profiler. -/
theorem preparation_alike (p : Preparation σ) (g : Grant) {s : Site σ π} {s' : Site σ π'}
    (h : s.Alike R s') :
    (p.run g s).1 = (p.run g s').1 ∧ (p.run g s).2.Alike R (p.run g s').2 := by
  induction p generalizing g s s' with
  | done => exact ⟨rfl, h⟩
  | fail e => exact ⟨rfl, h⟩
  | scratch size granted refused ihGranted ihRefused =>
    simp only [Preparation.run]
    split
    · exact ihRefused _ g h
    · exact ihGranted _ _ h
  | persistent size fill granted refused ihGranted ihRefused =>
    simp only [Preparation.run, Site.allocate]
    split
    · exact ihRefused _ g h
    · obtain ⟨hanswer, halike⟩ := h.request .tail size arenaAlignment .opData
      rcases hrun : s.request .tail size arenaAlignment .opData with ⟨answer, t⟩
      rcases hrun' : s'.request .tail size arenaAlignment .opData with ⟨answer', t'⟩
      rw [hrun, hrun'] at hanswer halike
      obtain rfl : answer = answer' := hanswer
      cases answer with
      | error e => exact ihRefused _ g halike
      | ok offset =>
        replace halike : t.Alike R t' := halike
        simp only [halike.store_eq]
        cases t.store.memory.read? offset size with
        | none => exact ihRefused _ _ halike
        | some before => exact ihGranted before _ (halike.mapMemory _)
  | outside change next ih =>
    simp only [Preparation.run, h.outside_eq]
    exact ih _ g (h.withOutside _)

theorem prepare_mirrors (g : Graph) (op : Operator) (k : Kernel σ) :
    Mirrors R (prepare g op k : Pass σ π AllocationError Grant)
      (prepare g op k : Pass σ π' AllocationError Grant) := by
  refine ⟨fun s s' h => ?_⟩
  obtain ⟨hanswer, halike⟩ := preparation_alike (k.prepare (.of g op)) {} h
  unfold exec prepare
  simp only [ExceptT.run_mk, StateT.run]
  rcases hrun : (k.prepare (.of g op)).run {} s with ⟨answer, t⟩
  rcases hrun' : (k.prepare (.of g op)).run {} s' with ⟨answer', t'⟩
  rw [hrun, hrun'] at hanswer halike
  obtain rfl : answer = answer' := hanswer
  cases answer with
  | ok grant => exact ⟨rfl, halike⟩
  | error e => exact ⟨rfl, halike⟩

theorem prepareAll_mirrors (g : Graph) (pairs : List (Operator × Kernel σ)) (index first : Nat) :
    Mirrors R
      (prepareAll g pairs index first : Pass σ π AllocationError (List OpRow × List Lifetime))
      (prepareAll g pairs index first : Pass σ π' AllocationError (List OpRow × List Lifetime)) := by
  induction pairs generalizing index first with
  | nil => exact .of_pure _
  | cons p rest ih =>
    obtain ⟨op, k⟩ := p
    exact (prepare_mirrors g op k).bind fun grant => (Mirrors.of_lift _).bind fun userData =>
      (ih ..).bind fun rows => .of_pure _

theorem reserveVariable_mirrors (t : Tensor) :
    Mirrors R (reserveVariable t : Pass σ π AllocationError Span)
      (reserveVariable t : Pass σ π' AllocationError Span) := by
  unfold reserveVariable
  split
  · exact (reserve_mirrors ..).bind fun offset =>
      (Mirrors.of_modify fun _ _ h => h.mapMemory _).bind fun _ => .of_lift _
  · exact .of_pure _

theorem plan_mirrors (strategy : Strategy) (lifetimes : List Lifetime) (room : Nat) :
    Mirrors R (plan strategy lifetimes room : Pass σ π AllocationError Plan)
      (plan strategy lifetimes room : Pass σ π' AllocationError Plan) := by
  refine (Mirrors.of_lift _).bind fun p => ?_
  split
  · exact (Mirrors.of_note ..).bind fun _ => .of_pure p
  · exact .of_pure p

theorem placeActivations_mirrors (g : Graph) (strategy : Strategy) (spans : List Span) :
    Mirrors R (placeActivations g strategy spans : Pass σ π AllocationError (List Span))
      (placeActivations g strategy spans : Pass σ π' AllocationError (List Span)) := by
  refine .get_bind fun s s' hstore => ?_
  rw [hstore]
  refine (plan_mirrors ..).bind fun p => ?_
  have hrest : ∀ base, Mirrors R
      (do
        let spans ← liftExcept (enterSpans base spans p.placements)
        note .debug s!"'{g.name}' activations: {p.summary}"
        pure spans : Pass σ π AllocationError (List Span))
      (do
        let spans ← liftExcept (enterSpans base spans p.placements)
        note .debug s!"'{g.name}' activations: {p.summary}"
        pure spans : Pass σ π' AllocationError (List Span)) :=
    fun base => (Mirrors.of_lift _).bind fun spans => (Mirrors.of_note ..).bind fun _ => .of_pure spans
  by_cases hpeak : 0 < p.peak
  · rw [if_pos hpeak, if_pos hpeak]
    exact (reserve_mirrors ..).bind hrest
  · rw [if_neg hpeak, if_neg hpeak]
    exact (Mirrors.of_pure 0).bind hrest

theorem placeScratch_mirrors (g : Graph) (strategy : Strategy) (lifetimes : List Lifetime) :
    Mirrors R (placeScratch g strategy lifetimes : Pass σ π AllocationError Nat)
      (placeScratch g strategy lifetimes : Pass σ π' AllocationError Nat) := by
  unfold placeScratch
  split
  · exact .of_pure 0
  · refine (reserve_mirrors ..).bind fun table => .get_bind fun s s' hstore => ?_
    rw [hstore]
    exact (plan_mirrors ..).bind fun p => (reserve_mirrors ..).bind fun base =>
      (Mirrors.of_lift _).bind fun rows => (changeMemory_mirrors _).bind fun _ =>
      (Mirrors.of_note ..).bind fun _ => .of_pure table

/-- The allocation pass does the same whatever the profiler is. -/
theorem commit_mirrors (g : Graph) (kernels : List (Kernel σ)) (strategy : Strategy) :
    Mirrors R (commit g kernels strategy : Pass σ π AllocationError Tables)
      (commit g kernels strategy : Pass σ π' AllocationError Tables) :=
  (Mirrors.of_modify fun _ _ h => h.rewind).bind fun _ =>
    (reserve_mirrors ..).bind fun _ => (prepareAll_mirrors ..).bind fun _ =>
    (reserve_mirrors ..).bind fun _ => (Mirrors.of_mapM reserveVariable_mirrors _).bind fun _ =>
    (placeActivations_mirrors ..).bind fun _ => (placeScratch_mirrors ..).bind fun _ =>
    (changeMemory_mirrors _).bind fun _ => (changeMemory_mirrors _).bind fun _ => .of_pure _

end Pass

end TensorArena
