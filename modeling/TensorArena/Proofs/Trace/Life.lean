import TensorArena.Config
import TensorArena.Proofs.Tenancy.Basic
import TensorArena.Proofs.Trace.Course
import TensorArena.Proofs.Trace.Pass

/-!
# The lives of kernels

An interpreter is created from watched kernels, and then its owner does with it what he likes, until
he drops it or a configuration that cannot be used consumes it; between his calls anything may happen
elsewhere. Every step keeps the trace on a course that fits the state of the interpreter, and the
step that ends the interpreter frees all its kernels.
-/

namespace TensorArena

variable {σ π : Type}

/-! ## Lives -/

namespace Site

/-- The site with an empty trace. -/
def watched (s : Site σ π) : Site (σ × Trace) π :=
  { s with outside := (s.outside, []) }

/-- Something happens that is not a call on the interpreter: anything may change but its trace. -/
def elsewhere (s : Site (σ × Trace) π) (change : Site σ π → Site σ π) : Site (σ × Trace) π :=
  { change s.unwatched with outside := ((change s.unwatched).outside, s.trace) }

end Site

/-- What the owner of an interpreter can do with it, and what happens elsewhere. -/
inductive Act (σ π : Type) where
  | equip (strategy : Strategy) (profiler : Option (Profiler π)) (profiling : Bool)
  | configure (c : Config)
  | setContext (value : Int)
  | allocate
  | invoke
  | write (id : Nat) (bytes : Bytes)
  | drop
  | elsewhere (change : Site σ π → Site σ π)

namespace Interpreter

/-- One act. Some acts leave no interpreter. -/
def act (i : Interpreter (σ × Trace) π) (s : Site (σ × Trace) π) :
    Act σ π → Option (Interpreter (σ × Trace) π) × Site (σ × Trace) π
  | .equip strategy profiler profiling => (some { i with strategy, profiler, profiling }, s)
  | .configure c =>
    match i.configure c s with
    | (.ok i, s) => (some i, s)
    | (.error _, s) => (none, s)
  | .setContext value => (some (i.setContext value s).2.1, (i.setContext value s).2.2)
  | .allocate => (some (i.allocate s).2.1, (i.allocate s).2.2)
  | .invoke => (some (i.invoke s).2.1, (i.invoke s).2.2)
  | .write id bytes => (some i, i.overwrite s id bytes)
  | .drop => (none, i.drop s)
  | .elsewhere change => (some i, s.elsewhere change)

/-- Acts in order, as long as there is an interpreter. -/
def live : Option (Interpreter (σ × Trace) π) → Site (σ × Trace) π → List (Act σ π) →
    Option (Interpreter (σ × Trace) π) × Site (σ × Trace) π
  | some i, s, a :: rest => live (i.act s a).1 (i.act s a).2 rest
  | i?, s, _ => (i?, s)

/-- A whole life: creation, if it succeeds, and then the acts. -/
def life (g : CheckedGraph) (resolver : Resolver σ) (s : Site σ π) (acts : List (Act σ π)) :
    Option (Interpreter (σ × Trace) π) × Site (σ × Trace) π :=
  match create g resolver.watched s.watched with
  | (.ok i, s) => live (some i) s acts
  | (.error _, s) => (none, s)

/-! ## Creation -/

theorem watchedFrom_append (number : Nat) (ks : List (Kernel σ)) (k : Kernel σ) :
    watchedFrom number (ks ++ [k]) = watchedFrom number ks ++ [k.watched (number + ks.length)] := by
  induction ks generalizing number with
  | nil => rfl
  | cons k' rest ih =>
    rw [List.cons_append, watchedFrom, ih, watchedFrom, List.cons_append, List.length_cons,
      show number + 1 + rest.length = number + (rest.length + 1) by omega]

theorem factoryOf_watched (resolver : Resolver σ) (op : Operator) :
    factoryOf resolver.watched op =
      (factoryOf resolver op).map fun factory => factory.watched op.code := by
  unfold factoryOf Resolver.watched
  by_cases hcount : maxOperands < max op.inputs.length op.outputs.length
  · simp only [if_pos hcount]
    rfl
  · simp only [if_neg hcount]
    cases resolver op.code with
    | none => rfl
    | some factory => rfl

theorem countP_isMade_mades (number : Nat) (ops : List Operator) :
    (mades number ops).countP Event.isMade = ops.length := by
  induction ops generalizing number with
  | nil => rfl
  | cons op rest ih =>
    have hrest := ih (number + 1)
    simp only [mades, List.zipIdx_cons, List.map_cons, List.countP_cons, List.length_cons] at hrest ⊢
    simp [hrest, Event.isMade]

theorem mades_append (number : Nat) (ops : List Operator) (op : Operator) :
    mades number (ops ++ [op]) = mades number ops ++ [.made (number + ops.length) op.code] := by
  simp [mades, List.zipIdx_append]

/-- Kernels are made in the order of the graph, up to the first operator that has none; then those
that were made are freed. -/
theorem resolve_trace (resolver : Resolver σ) (done rest : List Operator) (ks : List (Kernel σ))
    (hlen : ks.length = done.length) (outside : σ) :
    match resolve resolver.watched (watchedFrom 0 ks) rest (outside, mades 0 done) with
    | (.ok kernels, after) =>
      (∃ ks', kernels = watchedFrom 0 ks' ∧ ks'.length = (done ++ rest).length) ∧
        after.2 = mades 0 (done ++ rest)
    | (.error e, after) =>
      ∃ made op left, done ++ rest = made ++ op :: left ∧ factoryOf resolver op = .error e ∧
        after.2 = mades 0 made ++ frees made.length := by
  induction rest generalizing done ks outside with
  | nil =>
    rw [List.append_nil]
    exact ⟨⟨ks, rfl, hlen⟩, rfl⟩
  | cons op rest ih =>
    unfold resolve
    rw [factoryOf_watched]
    cases hfactory : factoryOf resolver op with
    | error e =>
      refine ⟨done, op, rest, rfl, hfactory, ?_⟩
      rw [freeAll_watchedFrom, hlen, ← List.range_eq_range']
      rfl
    | ok factory =>
      have hnext := ih (done ++ [op]) (ks ++ [(factory outside).1]) (by simp [hlen])
        (factory outside).2
      rw [watchedFrom_append, mades_append, Nat.zero_add, Nat.zero_add, List.append_assoc] at hnext
      have hmade : factory.watched op.code (outside, mades 0 done) =
          ((factory outside).1.watched ks.length, (factory outside).2,
            mades 0 done ++ [.made done.length op.code]) := by
        simp [Factory.watched, countP_isMade_mades, hlen]
      dsimp only [Except.map]
      rw [hmade]
      exact hnext

/-! ## Steps -/

/-- The interpreter has watched kernels, one for each operator of the graph, and the trace is on a
course that fits its state. -/
structure OnCourse (g : CheckedGraph) (i : Interpreter (σ × Trace) π) (s : Site (σ × Trace) π) :
    Prop where
  graph_eq : i.graph = g
  kernels : ∃ ks : List (Kernel σ), i.kernels = watchedFrom 0 ks ∧ ks.length = g.operators.length
  course : Course g.operators i.state s.trace

variable {g : CheckedGraph} {i : Interpreter (σ × Trace) π} {s : Site (σ × Trace) π}

/-- A step that calls no kernel. -/
theorem OnCourse.of_eq (h : OnCourse g i s) {i' : Interpreter (σ × Trace) π}
    {s' : Site (σ × Trace) π} (hgraph : i'.graph = i.graph) (hkernels : i'.kernels = i.kernels)
    (hstate : i'.state = i.state) (htrace : s'.trace = s.trace) : OnCourse g i' s' where
  graph_eq := hgraph.trans h.graph_eq
  kernels := by
    rw [hkernels]
    exact h.kernels
  course := by
    rw [hstate, htrace]
    exact h.course

theorem OnCourse.allocate (h : OnCourse g i s) :
    OnCourse g (i.allocate s).2.1 (i.allocate s).2.2 := by
  cases hstate : i.state with
  | allocated tables =>
    rw [allocate_of_allocated hstate]
    exact h
  | failed known =>
    rw [allocate_of_failed hstate]
    exact h
  | created =>
    by_cases hhold : s.hold = .free
    · obtain ⟨hgraph, ⟨ks, hkernels, hlen⟩, hcourse⟩ := h
      have htrace : s.trace = mades 0 g.operators := (hstate ▸ hcourse).eq_of_created
      subst hgraph
      have hruns := Pass.commit_trace (s := s) i.graph.toGraph ks hlen i.strategy
      rw [← hkernels, htrace] at hruns
      unfold Interpreter.allocate
      rw [hstate]
      dsimp only
      rw [if_neg (not_not_intro hhold)]
      split
      · rename_i tables s' hexec
        refine ⟨rfl, ⟨ks, hkernels, hlen⟩, ?_⟩
        have hafter := hruns.of_ok hexec
        rw [Site.trace_note, hafter]
        exact .passed
      · rename_i e s' hexec
        refine ⟨rfl, ⟨ks, hkernels, hlen⟩, ?_⟩
        obtain ⟨failed, events, hsweep, hafter⟩ := hruns.of_error hexec
        rw [Site.trace_note, hafter]
        exact .refused hsweep
    · rw [allocate_of_held hstate hhold]
      exact h

theorem OnCourse.runOnce (h : OnCourse g i s) {tables : Tables}
    (hstate : i.state = .allocated tables) :
    OnCourse g (i.runOnce tables s).2.1 (i.runOnce tables s).2.2 := by
  by_cases hhold : s.hold = .free
  · obtain ⟨hgraph, ⟨ks, hkernels, hlen⟩, hcourse⟩ := h
    subst hgraph
    rw [hstate] at hcourse
    have hruns := Pass.runAll_trace (s := s) i.graph.toGraph i.activeProfiler i.context tables
      i.graph.operators ks 0 0
    rw [← hkernels] at hruns
    unfold Interpreter.runOnce
    rw [if_neg (not_not_intro hhold)]
    split
    · rename_i index name cause s' hexec
      refine ⟨rfl, ⟨ks, hkernels, hlen⟩, ?_⟩
      obtain ⟨events, hsweep, hafter⟩ := hruns.of_error hexec
      rw [Site.trace_note, hafter]
      exact .broke hcourse hsweep
    · rename_i outcome s' hkernel hexec
      refine ⟨rfl, ⟨ks, hkernels, hlen⟩, ?_⟩
      obtain ⟨events, hsweep, hafter⟩ : Pass.Swept i.graph.operators 0 s.trace outcome s'.trace := by
        cases outcome with
        | ok _ => exact hruns.of_ok hexec
        | error e => exact hruns.of_error hexec
      have hwell : Pass.failedKernel outcome = false := by
        unfold Pass.failedKernel
        split
        · exact (hkernel _ _ _ rfl).elim
        · rfl
      rw [hwell] at hsweep
      rw [hafter, hstate]
      exact .ran hcourse hsweep
  · unfold Interpreter.runOnce
    rw [if_pos hhold]
    exact h

theorem OnCourse.invoke (h : OnCourse g i s) : OnCourse g (i.invoke s).2.1 (i.invoke s).2.2 := by
  cases hstate : i.state with
  | allocated tables =>
    rw [invoke_of_allocated hstate]
    exact h.runOnce hstate
  | failed known =>
    rw [invoke_of_failed hstate]
    exact h
  | created =>
    rcases i.state_of_allocate (s := s) hstate with ⟨tables, hok, hnext⟩ | ⟨e, herror, -⟩ | hheld
    · rw [invoke_of_allocate_ok hstate hok, invoke_of_allocated hnext]
      exact h.allocate.runOnce hnext
    · rw [invoke_of_allocate_error hstate herror]
      exact h.allocate
    · have herror : (i.allocate s).1 = .error .busy := by
        rw [hheld]
      rw [invoke_of_allocate_error hstate herror]
      exact h.allocate

theorem OnCourse.drop (h : OnCourse g i s) :
    (i.drop s).trace = s.trace ++ frees g.operators.length := by
  obtain ⟨ks, hkernels, hlen⟩ := h.kernels
  show (freeAll i.kernels s.outside).2 = _
  rw [hkernels, freeAll_watchedFrom, hlen, ← List.range_eq_range']
  rfl

/-- An act keeps an interpreter on course, or ends it and frees its kernels. -/
theorem OnCourse.act (h : OnCourse g i s) (a : Act σ π) :
    match i.act s a with
    | (some i', s') => OnCourse g i' s'
    | (none, s') => s'.trace = s.trace ++ frees g.operators.length := by
  cases a with
  | equip strategy profiler profiling => exact h.of_eq rfl rfl rfl rfl
  | configure c =>
    simp only [Interpreter.act, configure]
    cases c.strategy with
    | ok strategy => exact h.of_eq rfl rfl rfl rfl
    | error e => exact h.drop
  | setContext value =>
    simp only [Interpreter.act, Interpreter.setContext]
    cases i.context with
    | none => exact h.of_eq rfl rfl rfl rfl
    | some old => exact h.of_eq rfl rfl rfl rfl
  | allocate => exact h.allocate
  | invoke => exact h.invoke
  | write id bytes =>
    refine h.of_eq rfl rfl rfl ?_
    unfold overwrite
    split
    · rfl
    · split
      · rfl
      · rfl
  | drop => exact h.drop
  | elsewhere change => exact h.of_eq rfl rfl rfl rfl

/-! ## Whole lives -/

theorem OnCourse.live (h : OnCourse g i s) (acts : List (Act σ π)) :
    match Interpreter.live (some i) s acts with
    | (some i', s') => OnCourse g i' s'
    | (none, s') => ∃ state before, Course g.operators state before ∧
        s'.trace = before ++ frees g.operators.length := by
  induction acts generalizing i s with
  | nil => exact h
  | cons a rest ih =>
    have hact := h.act a
    unfold Interpreter.live
    rcases hcall : i.act s a with ⟨_ | i', s'⟩
    · rw [hcall] at hact
      have hend : Interpreter.live (none : Option (Interpreter (σ × Trace) π)) s' rest =
          (none, s') := by
        cases rest with
        | nil => rfl
        | cons => rfl
      dsimp only
      rw [hend]
      exact ⟨i.state, s.trace, h.course, hact⟩
    · rw [hcall] at hact
      exact ih hact

theorem create_onCourse (g : CheckedGraph) (resolver : Resolver σ) (s : Site σ π) :
    match create g resolver.watched s.watched with
    | (.ok i, s') => OnCourse g i s'
    | (.error e, s') => ∃ made op left, g.operators = made ++ op :: left ∧
        factoryOf resolver op = .error e ∧ s'.trace = mades 0 made ++ frees made.length := by
  have hresolve := resolve_trace resolver [] g.operators [] rfl s.outside
  rw [List.nil_append] at hresolve
  unfold create
  rcases hcall : resolve resolver.watched [] g.operators s.watched.outside with ⟨answer, outside⟩
  have hcall' : resolve resolver.watched (watchedFrom 0 []) g.operators
      (s.outside, mades 0 []) = (answer, outside) := hcall
  rw [hcall'] at hresolve
  cases answer with
  | error e => exact hresolve
  | ok kernels =>
    obtain ⟨hkernels, htrace⟩ := hresolve
    refine ⟨rfl, hkernels, ?_⟩
    have htrace : outside.2 = mades 0 g.operators := htrace
    show Course g.operators .created outside.2
    rw [htrace]
    exact .made

/-- In every life the kernels of an interpreter keep their protocol. As long as it lives, the trace is
on a course that fits its state. When it is gone, the trace is a course of the kernels that were made,
and then the frees of them all; these are the kernels of all operators, or of those before the first
one that has none. -/
theorem life_keeps_protocol (g : CheckedGraph) (resolver : Resolver σ) (s : Site σ π)
    (acts : List (Act σ π)) :
    match life g resolver s acts with
    | (some i, s') => Course g.operators i.state s'.trace
    | (none, s') => ∃ made state before, Course made state before ∧
        s'.trace = before ++ frees made.length ∧ Protocol made s'.trace ∧
        (made = g.operators ∨ state = .created ∧ ∃ op left e, g.operators = made ++ op :: left ∧
          factoryOf resolver op = .error e) := by
  have hcreate := create_onCourse g resolver s
  unfold life
  rcases hcall : create g resolver.watched s.watched with ⟨e | i, s₁⟩
  · rw [hcall] at hcreate
    obtain ⟨made, op, left, hops, hfactory, htrace⟩ := hcreate
    refine ⟨made, .created, mades 0 made, .made, htrace, ?_, .inr ⟨rfl, op, left, e, hops, hfactory⟩⟩
    rw [htrace]
    exact Course.made.protocol
  · rw [hcall] at hcreate
    have hlive := OnCourse.live hcreate acts
    dsimp only
    rcases hend : live (some i) s₁ acts with ⟨_ | i', s'⟩
    · rw [hend] at hlive
      obtain ⟨state, before, hcourse, htrace⟩ := hlive
      refine ⟨g.operators, state, before, hcourse, htrace, ?_, .inl rfl⟩
      rw [htrace]
      exact hcourse.protocol
    · rw [hend] at hlive
      exact hlive.course

/-- One kernel, prepared by the first of two invocations and freed in the end. -/
example :
    let ops := Graph.Sample.nullIo.operators
    let acts : List (Act Unit Unit) := [.equip .linear none true, .invoke, .invoke, .drop]
    (life ⟨Graph.Sample.nullIo, rfl⟩ (fun _ => some (.always { invoke := pure () }))
      (.ofBuffer 0 (.replicate 128 0) () ()) acts).2.trace =
      mades 0 ops ++ sweepAll .prepare 0 ops ++ sweepAll .invoke 0 ops ++ sweepAll .invoke 0 ops ++
        frees 1 := by
  decide +kernel

end Interpreter

end TensorArena
