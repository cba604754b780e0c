import TensorArena.Proofs.Interpreter.States
import TensorArena.Proofs.Profile.Mirrors
import TensorArena.Proofs.Tenancy.Basic

/-!
# Tenants without their profilers

Whatever tenants and the holder of a store do, the same actions by the same tenants without profilers
go the same way: every call is answered alike, every interpreter is in the same state, and the store
has the same bytes. It does not matter what the profilers answer, nor when they fail.
-/

namespace TensorArena

variable {σ π π' α : Type}

/-- Relates all states of two profilers. -/
def anyProfile (_ : π) (_ : π') : Prop :=
  True

/-! ## Running operators -/

theorem Site.Alike.bound_eq {R : π → π' → Prop} {s : Site σ π} {s' : Site σ π'} (h : s.Alike R s')
    (g : Graph) (op : Operator) (tables : Tables) (index : Nat) (context : Option Int) :
    s'.bound g op tables index context = s.bound g op tables index context := by
  unfold Site.bound
  rw [h.store_eq]

/-- A kernel does the same on sites that are alike. -/
theorem Site.Ran.alike {k : Kernel σ} {o : Operands} {outcome outcome' : Except KernelError Unit}
    {s t : Site σ π} {s' t' : Site σ π'} (h : Ran k o outcome s t) (h' : Ran k o outcome' s' t')
    (hs : s.Alike anyProfile s') : outcome = outcome' ∧ t.Alike anyProfile t' := by
  have houtside := hs.outside_eq
  refine ⟨?_, ?_, ?_, ?_, ?_, trivial⟩
  · rw [← h.outcome_eq, ← h'.outcome_eq, houtside]
  · rw [h'.store_eq, h.store_eq, houtside, hs.store_eq]
  · rw [h'.hold_eq, h.hold_eq, hs.hold_eq]
  · rw [h'.outside_eq, h.outside_eq, houtside]
  · rw [h'.granted_eq, h.granted_eq, hs.granted_eq]

/-- What the run of one operator answers and leaves, as far as no profiler is concerned. -/
def Site.Operated (g : Graph) (context : Option Int) (tables : Tables) (index : Nat) (op : Operator)
    (k : Kernel σ) (answer : Except ExecutionError Unit) (s t : Site σ π) : Prop :=
  match s.bound g op tables index context with
  | .error e => answer = .error e ∧ t = s
  | .ok o => ∃ outcome, Ran k o outcome s t ∧
      answer = outcome.mapError (ExecutionError.kernel index op.name)

namespace Pass

theorem Runs.exec {ε : Type} {p : Pass σ π ε α} {s : Site σ π} {P : Except ε α → Site σ π → Prop}
    (h : p.Runs s (fun a t => P (.ok a) t) fun e t => P (.error e) t) :
    P (p.exec s).1 (p.exec s).2 := by
  cases hexec : p.exec s with
  | mk answer t =>
    cases answer with
    | ok a => exact h.of_ok hexec
    | error e => exact h.of_error hexec

theorem runOperator_operated (s : Site σ π) (g : Graph) (profiler : Option (Profiler π))
    (context : Option Int) (tables : Tables) (index : Nat) (op : Operator) (k : Kernel σ) :
    Site.Operated g context tables index op k
      ((runOperator g profiler context tables index op k).exec s).1 s
      ((runOperator g profiler context tables index op k).exec s).2 := by
  refine Runs.exec (P := fun answer t => Site.Operated g context tables index op k answer s t)
    ((runOperator_runs s g profiler context tables index op k).mono ?_ ?_)
  · rintro _ t ⟨o, hbound, hran⟩
    simp only [Site.Operated, hbound]
    exact ⟨_, hran, rfl⟩
  · rintro e t (⟨hbound, rfl⟩ | ⟨o, cause, hbound, rfl, hran⟩)
    · simp [Site.Operated, hbound]
    · simp only [Site.Operated, hbound]
      exact ⟨_, hran, rfl⟩

/-- One operator, with any two profilers. -/
theorem runOperator_mirrors (g : Graph) (profiler : Option (Profiler π))
    (profiler' : Option (Profiler π')) (context : Option Int) (tables : Tables) (index : Nat)
    (op : Operator) (k : Kernel σ) :
    Mirrors anyProfile (runOperator g profiler context tables index op k)
      (runOperator g profiler' context tables index op k) := by
  refine ⟨fun s s' h => ?_⟩
  have hop := runOperator_operated s g profiler context tables index op k
  have hop' := runOperator_operated s' g profiler' context tables index op k
  unfold Site.Operated at hop hop'
  rw [h.bound_eq] at hop'
  cases hbound : s.bound g op tables index context with
  | error e =>
    simp only [hbound] at hop hop'
    rw [hop.1, hop.2, hop'.1, hop'.2]
    exact ⟨rfl, h⟩
  | ok o =>
    simp only [hbound] at hop hop'
    obtain ⟨outcome, hran, hanswer⟩ := hop
    obtain ⟨outcome', hran', hanswer'⟩ := hop'
    obtain ⟨rfl, halike⟩ := hran.alike hran' h
    exact ⟨hanswer.trans hanswer'.symm, halike⟩

theorem runAll_mirrors (g : Graph) (profiler : Option (Profiler π))
    (profiler' : Option (Profiler π')) (context : Option Int) (tables : Tables)
    (pairs : List (Operator × Kernel σ)) (index : Nat) :
    Mirrors anyProfile (runAll g profiler context tables pairs index)
      (runAll g profiler' context tables pairs index) := by
  induction pairs generalizing index with
  | nil => exact .of_pure ()
  | cons p rest ih =>
    obtain ⟨op, k⟩ := p
    exact (runOperator_mirrors g profiler profiler' context tables index op k).bind fun _ => ih _

end Pass

/-! ## Calls on an interpreter -/

namespace Interpreter

/-- The interpreter without its profiler. -/
def unprofiled (i : Interpreter σ π) : Interpreter σ Unit where
  graph := i.graph
  kernels := i.kernels
  strategy := i.strategy
  profiling := i.profiling
  context := i.context
  state := i.state

/-- Two calls with the same answer that leave the same interpreter but for its profiler, on sites
that are alike. -/
structure Echoes (call : α × Interpreter σ π × Site σ π) (call' : α × Interpreter σ Unit × Site σ Unit) :
    Prop where
  answer_eq : call.1 = call'.1
  interpreter_eq : call'.2.1 = call.2.1.unprofiled
  alike : call.2.2.Alike anyProfile call'.2.2

variable {i : Interpreter σ π} {s : Site σ π} {s' : Site σ Unit}

theorem create_echoes (g : CheckedGraph) (resolver : Resolver σ) (h : s.Alike anyProfile s') :
    (create (π := Unit) g resolver s').1 = (create g resolver s).1.map unprofiled ∧
      (create g resolver s).2.Alike anyProfile (create g resolver s').2 := by
  unfold create
  rw [h.outside_eq]
  rcases resolve resolver [] g.operators s.outside with ⟨answer, outside⟩
  cases answer with
  | ok kernels => exact ⟨rfl, (h.withOutside outside).note⟩
  | error e => exact ⟨rfl, h.withOutside outside⟩

theorem setContext_echoes (i : Interpreter σ π) (value : Int) (h : s.Alike anyProfile s') :
    Echoes (i.setContext value s) (i.unprofiled.setContext value s') := by
  unfold setContext
  simp only [unprofiled]
  cases hcontext : i.context with
  | none => exact ⟨rfl, rfl, h⟩
  | some _ => exact ⟨rfl, by rw [unprofiled, hcontext], h.note⟩

theorem allocate_echoes (i : Interpreter σ π) (h : s.Alike anyProfile s') :
    Echoes (i.allocate s) (i.unprofiled.allocate s') := by
  obtain ⟨hanswer, halike⟩ :=
    (Pass.commit_mirrors (R := anyProfile) i.graph.toGraph i.kernels i.strategy).runs s s' h
  unfold allocate
  simp only [unprofiled]
  cases hstate : i.state with
  | allocated tables => exact ⟨rfl, by rw [unprofiled, hstate], h⟩
  | failed known => exact ⟨rfl, by rw [unprofiled, hstate], h⟩
  | created =>
    rw [h.hold_eq]
    by_cases hhold : s.hold = .free
    · simp only [hhold, ne_eq, not_true_eq_false, if_false]
      rcases hrun : (Pass.commit i.graph.toGraph i.kernels i.strategy).run.run s with ⟨answer, t⟩
      rcases hrun' : (Pass.commit i.graph.toGraph i.kernels i.strategy).run.run s' with ⟨answer', t'⟩
      unfold Pass.exec at hanswer halike
      rw [hrun, hrun'] at hanswer halike
      obtain rfl : answer = answer' := hanswer
      cases answer with
      | ok tables => exact ⟨rfl, rfl, halike.note⟩
      | error e => exact ⟨rfl, rfl, halike.note⟩
    · simp only [hhold, ne_eq, not_false_eq_true, if_true]
      exact ⟨rfl, by rw [unprofiled, hstate], h⟩

/-- The operators of an interpreter, as a pass. -/
def running (i : Interpreter σ π) (tables : Tables) : Pass σ π ExecutionError Unit :=
  Pass.runAll i.graph.toGraph i.activeProfiler i.context tables (i.graph.operators.zip i.kernels) 0

theorem runOnce_echoes (i : Interpreter σ π) (tables : Tables) (h : s.Alike anyProfile s') :
    Echoes (i.runOnce tables s) (i.unprofiled.runOnce tables s') := by
  have hmirrors : Pass.Mirrors anyProfile (i.running tables) (i.unprofiled.running tables) :=
    Pass.runAll_mirrors ..
  obtain ⟨hanswer, halike⟩ := hmirrors.runs s s' h
  unfold running Pass.exec at hanswer halike
  unfold runOnce
  rw [h.hold_eq]
  by_cases hhold : s.hold = .free
  · simp only [hhold, ne_eq, not_true_eq_false, if_false]
    generalize (Pass.runAll i.graph.toGraph i.activeProfiler i.context tables
      (i.graph.operators.zip i.kernels) 0).run.run s = run at hanswer halike ⊢
    generalize (Pass.runAll i.unprofiled.graph.toGraph i.unprofiled.activeProfiler
      i.unprofiled.context tables (i.unprofiled.graph.operators.zip i.unprofiled.kernels) 0).run.run
        s' = run' at hanswer halike ⊢
    obtain ⟨answer, t⟩ := run
    obtain ⟨answer', t'⟩ := run'
    obtain rfl : answer = answer' := hanswer
    -- The error of a kernel is told apart from every other outcome.
    cases answer with
    | ok _ => exact ⟨rfl, rfl, halike⟩
    | error e =>
      cases e with
      | kernel index name cause => exact ⟨rfl, rfl, halike.note⟩
      | _ => exact ⟨rfl, rfl, halike⟩
  · simp only [hhold, ne_eq, not_false_eq_true, if_true]
    exact ⟨rfl, rfl, h⟩

theorem invoke_echoes (i : Interpreter σ π) (h : s.Alike anyProfile s') :
    Echoes (i.invoke s) (i.unprofiled.invoke s') := by
  cases hstate : i.state with
  | failed known =>
    have hstate' : i.unprofiled.state = .failed known := hstate
    rw [invoke_of_failed hstate, invoke_of_failed hstate']
    exact ⟨rfl, rfl, h⟩
  | allocated tables =>
    have hstate' : i.unprofiled.state = .allocated tables := hstate
    rw [invoke_of_allocated hstate, invoke_of_allocated hstate']
    exact i.runOnce_echoes tables h
  | created =>
    have hstate' : i.unprofiled.state = .created := hstate
    have hcall := i.allocate_echoes h
    cases hanswer : (i.allocate s).1 with
    | error e =>
      have hanswer' : (i.unprofiled.allocate s').1 = .error e := hcall.answer_eq.symm.trans hanswer
      rw [invoke_of_allocate_error hstate hanswer, invoke_of_allocate_error hstate' hanswer']
      exact ⟨rfl, hcall.interpreter_eq, hcall.alike⟩
    | ok _ =>
      have hanswer' : (i.unprofiled.allocate s').1 = .ok () := hcall.answer_eq.symm.trans hanswer
      rw [invoke_of_allocate_ok hstate hanswer, invoke_of_allocate_ok hstate' hanswer',
        hcall.interpreter_eq]
      rcases i.state_of_allocate (s := s) hstate with ⟨tables, -, hnext⟩ | ⟨e, herror, -⟩ | hheld
      · have hnext' : (i.allocate s).2.1.unprofiled.state = .allocated tables := hnext
        rw [invoke_of_allocated hnext, invoke_of_allocated hnext']
        exact runOnce_echoes _ tables hcall.alike
      · cases hanswer.symm.trans herror
      · rw [hheld] at hanswer
        cases hanswer

/-- Tensors are read alike. -/
theorem tensor_echo (i : Interpreter σ π) (h : s.Alike anyProfile s') (id : Nat) :
    i.unprofiled.tensor s' id = i.tensor s id := by
  simp only [tensor, locate, tablesFor, bytesOf, unprofiled, h.hold_eq, h.store_eq]

theorem writableTensor_echo (i : Interpreter σ π) (h : s.Alike anyProfile s') (id : Nat) :
    i.unprofiled.writableTensor s' id = i.writableTensor s id := by
  simp only [writableTensor, locate, tablesFor, bytesOf, unprofiled, h.hold_eq, h.store_eq]

theorem overwrite_alike (i : Interpreter σ π) (h : s.Alike anyProfile s') (id : Nat)
    (bytes : Bytes) :
    (i.overwrite s id bytes).Alike anyProfile (i.unprofiled.overwrite s' id bytes) := by
  unfold overwrite
  rw [i.writableTensor_echo h]
  cases i.writableTensor s id with
  | error e => exact h
  | ok handle =>
    dsimp only
    split
    · exact h.mapMemory _
    · exact h

theorem drop_alike (i : Interpreter σ π) (h : s.Alike anyProfile s') :
    (i.drop s).Alike anyProfile (i.unprofiled.drop s') := by
  unfold drop
  rw [h.outside_eq]
  exact (h.withOutside _).note

end Interpreter

/-! ## Tenants -/

namespace Tenancy

/-- The action by a tenant who has no profiler. -/
def Action.unprofiled : Action σ π → Action σ Unit
  | .enter g resolver => .enter g resolver
  | .equip n strategy _ profiling => .equip n strategy none profiling
  | .setContext n value => .setContext n value
  | .allocate n => .allocate n
  | .write n id bytes => .write n id bytes
  | .invoke n => .invoke n
  | .drop n => .drop n
  | .request region size align category => .request region size align category
  | .rewind => .rewind
  | .poke block offset bytes => .poke block offset bytes
  | .hold how => .hold how
  | .profile _ => .profile id

/-- The same tenants without their profilers, on sites that are alike. -/
structure Echoes (t : Tenancy σ π) (t' : Tenancy σ Unit) : Prop where
  site : t.site.Alike anyProfile t'.site
  tenants : t'.tenants = t.tenants.map fun place => place.map Interpreter.unprofiled
  deeds : t'.deeds = t.deeds

variable {t : Tenancy σ π} {t' : Tenancy σ Unit}

theorem Echoes.tenant? (h : t.Echoes t') (n : Nat) :
    t'.tenant? n = (t.tenant? n).map Interpreter.unprofiled := by
  unfold Tenancy.tenant?
  rw [h.tenants, List.getElem?_map]
  cases t.tenants[n]? with
  | none => rfl
  | some place => rfl

/-- A call on the interpreter of a tenant. -/
theorem Echoes.call (h : t.Echoes t') (n : Nat)
    {f : Interpreter σ π → Site σ π → Interpreter σ π × Site σ π}
    {f' : Interpreter σ Unit → Site σ Unit → Interpreter σ Unit × Site σ Unit}
    (hf : ∀ i, (f' i.unprofiled t'.site).1 = (f i t.site).1.unprofiled ∧
      (f i t.site).2.Alike anyProfile (f' i.unprofiled t'.site).2) :
    (t.call n f).1.Alike anyProfile (t'.call n f').1 ∧
      (t'.call n f').2 = (t.call n f).2.map fun place => place.map Interpreter.unprofiled := by
  unfold Tenancy.call
  rw [h.tenant? n]
  cases t.tenant? n with
  | none => exact ⟨h.site, h.tenants⟩
  | some i =>
    obtain ⟨hinterpreter, halike⟩ := hf i
    refine ⟨halike, ?_⟩
    simp [h.tenants, hinterpreter, List.map_set]

theorem Echoes.act (h : t.Echoes t') (action : Action σ π) :
    (t.act action).1.Alike anyProfile (t'.act action.unprofiled).1 ∧
      (t'.act action.unprofiled).2 =
        (t.act action).2.map fun place => place.map Interpreter.unprofiled := by
  cases action with
  | enter g resolver =>
    obtain ⟨hanswer, halike⟩ := Interpreter.create_echoes g resolver h.site
    simp only [Action.unprofiled, Tenancy.act]
    rcases hcreate : Interpreter.create g resolver t.site with ⟨answer, s⟩
    rcases hcreate' : Interpreter.create (π := Unit) g resolver t'.site with ⟨answer', s'⟩
    rw [hcreate, hcreate'] at hanswer halike
    obtain rfl : answer' = answer.map Interpreter.unprofiled := hanswer
    cases answer with
    | ok i => exact ⟨halike, by simp [Except.map, h.tenants]⟩
    | error e => exact ⟨halike, h.tenants⟩
  | equip n strategy profiler profiling => exact h.call n fun i => ⟨rfl, h.site⟩
  | setContext n value =>
    exact h.call n fun i =>
      have hcall := i.setContext_echoes value h.site
      ⟨hcall.interpreter_eq, hcall.alike⟩
  | allocate n =>
    exact h.call n fun i =>
      have hcall := i.allocate_echoes h.site
      ⟨hcall.interpreter_eq, hcall.alike⟩
  | write n id bytes => exact h.call n fun i => ⟨rfl, i.overwrite_alike h.site id bytes⟩
  | invoke n =>
    exact h.call n fun i =>
      have hcall := i.invoke_echoes h.site
      ⟨hcall.interpreter_eq, hcall.alike⟩
  | drop n =>
    simp only [Action.unprofiled, Tenancy.act, h.tenant? n]
    cases t.tenant? n with
    | none => exact ⟨h.site, h.tenants⟩
    | some i => exact ⟨i.drop_alike h.site, by simp [h.tenants, List.map_set]⟩
  | request region size align category => exact ⟨(h.site.request ..).2, h.tenants⟩
  | rewind => exact ⟨h.site.rewind, h.tenants⟩
  | poke block offset bytes =>
    simp only [Action.unprofiled, Tenancy.act, h.deeds]
    split
    · exact ⟨h.site.mapMemory _, h.tenants⟩
    · exact ⟨h.site, h.tenants⟩
  | hold how =>
    exact ⟨⟨h.site.store_eq, rfl, h.site.outside_eq, h.site.granted_eq, trivial⟩, h.tenants⟩
  | profile change =>
    exact ⟨⟨h.site.store_eq, h.site.hold_eq, h.site.outside_eq, h.site.granted_eq, trivial⟩,
      h.tenants⟩

theorem Echoes.actor (h : t.Echoes t') (action : Action σ π) :
    t'.actor action.unprofiled = t.actor action := by
  cases action with
  | enter g resolver => simp [Action.unprofiled, Tenancy.actor, h.tenants]
  | _ => rfl

theorem Echoes.step (h : t.Echoes t') (action : Action σ π) :
    (t.step action).Echoes (t'.step action.unprofiled) := by
  obtain ⟨halike, htenants⟩ := h.act action
  refine ⟨halike, htenants, ?_⟩
  simp only [Tenancy.step, Site.fresh, h.actor, h.deeds, halike.granted_eq, h.site.granted_eq]

theorem Echoes.run (h : t.Echoes t') (actions : List (Action σ π)) :
    (t.run actions).Echoes (t'.run (actions.map Action.unprofiled)) := by
  induction actions generalizing t t' with
  | nil => exact h
  | cons action rest ih => exact ih (h.step action)

theorem start_echoes {s : Site σ π} {s' : Site σ Unit} (h : s.Alike anyProfile s') :
    (start s).Echoes (start s') :=
  ⟨h, rfl, by rw [start, start, h.granted_eq]⟩

end Tenancy

end TensorArena
