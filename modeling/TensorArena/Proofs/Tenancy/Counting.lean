import TensorArena.Proofs.Reference.Counted
import TensorArena.Proofs.Tenancy.Following

/-!
# Tenants count their runs

What a tenant reports after an invocation that succeeds, when its interpreter runs one operator with a
count of its own: how many of its invocations have succeeded by then, whatever other tenants and the
holder of the store did in between. The median is that of the bytes that the input has when the
operator starts, so an invocation that has to allocate first is looked at after that.
-/

namespace TensorArena

variable {σ π : Type}

namespace Interpreter

/-- The interpreter has one operator, with that kernel over those tensors. -/
structure Single (i : Interpreter σ π) (kernel : Kernel σ) (inputs outputs : List Nat) : Prop where
  operators : ∃ op : Operator, i.graph.operators = [op] ∧ op.inputs = inputs.map some ∧
    op.outputs = outputs.map some
  kernels : i.kernels = [kernel]

/-- Where the operators of an invocation start: an interpreter that is only created is allocated
first. -/
def atStart (i : Interpreter σ π) (s : Site σ π) : Interpreter σ π × Site σ π :=
  match i.state with
  | .created => (i.allocate s).2
  | _ => (i, s)

theorem atStart_of_ok {i : Interpreter σ π} {s : Site σ π} (hok : (i.invoke s).1 = .ok ()) :
    i.atStart s = (i.allocate s).2 := by
  unfold atStart
  cases hstate : i.state with
  | created => rfl
  | allocated tables => rw [allocate_of_allocated hstate]
  | failed known =>
    rw [invoke_of_failed hstate] at hok
    cases hok

end Interpreter

namespace Tenancy

variable {s : Site σ π} {actions : List (Action σ π)} {n : Nat} {i : Interpreter σ π}

/-- An invocation that succeeds, of an interpreter with one operator: it starts where the invocations
that succeeded before have led to, and is one run more. -/
theorem run_invoke_single (hs : s.Sound) (hi : ((start s).run actions).tenant? n = some i)
    (hok : (i.invoke ((start s).run actions).site).1 = .ok ()) {op : Operator} {kernel : Kernel σ}
    {f : Meaning} (hone : i.graph.operators = [op]) (hkernels : i.kernels = [kernel])
    (hf : kernel.Computes i.graph.toGraph op f) :
    ∃ i₁ s₁ tables a, i.atStart ((start s).run actions).site = (i₁, s₁) ∧
      (i.invoke ((start s).run actions).site).2.1 = i₁ ∧ i₁.graph = i.graph ∧
      i₁.kernels = i.kernels ∧ a.Bindable i₁.graph.toGraph s₁.memory ∧
      i₁.Reaches tables a [f] (Writes actions n) ((start s).successes n actions) s₁.memory ∧
      i₁.RanOnce tables a [f] s₁ (i.invoke ((start s).run actions).site).2.2 := by
  have ht := (start_sound hs).run actions
  obtain ⟨hmade, hstrategy, -⟩ := ht.tenants n i hi
  have hnumber : ∀ m : Memory, i.graph.NumbersScratch m := by
    intro m
    refine .inr (.inl ?_)
    rw [hone]
    exact Nat.one_le_two_pow
  have hcomputed := Graph.computed_single hone hkernels hf
  have hposition := position_run hs actions hi (hnumber _) hcomputed
  obtain ⟨hsame, tables, a, -, hr, hran⟩ :=
    (hposition.invoke ht.site hmade hstrategy (hnumber _) hcomputed).1 hok
  have hgraph := i.graph_allocate ((start s).run actions).site
  refine ⟨_, _, tables, a, Interpreter.atStart_of_ok hok, hsame, hgraph, i.kernels_allocate _, ?_,
    hr, hran⟩
  refine Interpreter.bindable (i.made_allocate _ hmade) hr.toLodged ?_
  rw [hgraph]
  exact hnumber _

/-- Tenants count their invocations that succeed. One that runs the kernel with a state reports the
median of the bytes that its input has at the start, and how many invocations of it have succeeded. One
that runs the counting kernel over a variable that it never writes itself reports that number in every
element of the variable and of the output, and goes round after so many as there are words. -/
theorem run_counts_successes (hs : s.Sound) (hi : ((start s).run actions).tenant? n = some i)
    (hok : (i.invoke ((start s).run actions).site).1 = .ok ()) :
    let before := i.atStart ((start s).run actions).site
    let after := (i.invoke ((start s).run actions).site).2
    let count := (start s).successes n actions + 1
    (∀ free x y z, i.Single (SampleKernel.simpleStateful free) [x] [y, z] →
      i.graph.toGraph.Typed x .u8 → 1 ≤ i.graph.toGraph.elementsOf x →
      i.graph.toGraph.Typed y .u8 → i.graph.toGraph.Typed z .i32 → count < 2 ^ 31 →
        ∃ values m, before.1.Reads before.2 x .u8 values ∧
          values.length = i.graph.toGraph.elementsOf x ∧ IsMedian m values ∧
          after.1.Shows after.2 y .u8 m ∧ after.1.Shows after.2 z .i32 count ∧
          DType.i32.toInt count = count) ∧
    (∀ free x y, i.Single (SampleKernel.accumulate free) [x] [y] → i.graph.toGraph.IsVar x →
      i.graph.toGraph.Typed x .i32 → ¬ Writes actions n x →
        after.1.Shows after.2 x .i32 (count % 2 ^ 32) ∧
          after.1.Shows after.2 y .i32 (count % 2 ^ 32)) := by
  intro before after count
  have hmodulus : DType.i32.modulus = 2 ^ 32 := by decide
  constructor
  · rintro free x y z ⟨⟨op, hone, hinputs, houtputs⟩, hkernels⟩ hx hpos hy hz hcount
    obtain ⟨i₁, s₁, tables, a, hstart, hsame, hgraph, hkept, hb, hr, hran⟩ :=
      run_invoke_single hs hi hok hone hkernels
        (SampleKernel.simpleStateful_computes free hinputs houtputs)
    rw [← hgraph] at hone hx hpos hy hz hr hran
    obtain ⟨values, m, hreads, hlen, hmedian, hfirst, hsecond⟩ :=
      hran.reports hr hb hone (hkept.trans hkernels) hinputs houtputs hx hpos hy hz
    have hword : count % DType.i32.modulus = count := by
      rw [hmodulus]
      exact Nat.mod_eq_of_lt (by omega)
    rw [hword, ← hsame] at hsecond
    rw [← hsame] at hfirst
    rw [hgraph] at hlen
    refine ⟨values, m, ?_, hlen, hmedian, hfirst, hsecond, ?_⟩
    · show (i.atStart _).1.Reads (i.atStart _).2 x .u8 values
      rw [hstart]
      exact hreads
    · rw [DType.toInt, if_neg]
      rw [hmodulus]
      omega
  · rintro free x y ⟨⟨op, hone, hinputs, houtputs⟩, hkernels⟩ hvar hx hunwritten
    obtain ⟨i₁, s₁, tables, a, hstart, hsame, hgraph, hkept, hb, hr, hran⟩ :=
      run_invoke_single hs hi hok hone hkernels
        (SampleKernel.accumulate_computes free hvar hinputs houtputs)
    rw [← hgraph] at hone hvar hx hr hran
    have hcounts := hran.counts hr hb hone (hkept.trans hkernels) hinputs houtputs hvar hx hunwritten
    rw [hmodulus, ← hsame] at hcounts
    exact hcounts

/-! ## Three tenants -/

/-- A store whose bytes are not zero. -/
def countingStart : Site Unit Unit :=
  .ofBuffer 0 (.replicate 1024 255) () ()

theorem three_check : (Graph.Sample.stateful 3).check = .ok () :=
  rfl

theorem one_check : (Graph.Sample.stateful 1).check = .ok () :=
  rfl

/-- Two tenants report medians, one of three bytes and one of a single byte, and one counts a variable
up. -/
def countingTenants : List (Action Unit Unit) :=
  [.enter ⟨Graph.Sample.stateful 3, three_check⟩ fun _ =>
      some (.always (SampleKernel.simpleStateful id)),
    .enter ⟨Graph.Sample.stateful 1, one_check⟩ fun _ =>
      some (.always (SampleKernel.simpleStateful id)),
    .enter Interpreter.counter.graph fun _ => some (.always (SampleKernel.accumulate id))]

/-- The first tenant is ready to run, the second one has run once, and the third one twice: another
attempt of it found the store held. -/
def countingActions : List (Action Unit Unit) :=
  [.equip 0 ⟨.linear, Strategy.linear_sound⟩ none true,
    .equip 1 ⟨.linear, Strategy.linear_sound⟩ none true,
    .equip 2 ⟨.linear, Strategy.linear_sound⟩ none true,
    .invoke 2, .request .tail 16 16 .allocatorInternal, .allocate 0, .write 0 0 [9, 2, 4], .rewind,
    .hold .exclusive, .invoke 2, .hold .free, .invoke 1, .invoke 2, .write 1 0 [7]]

/-- The tenants after all that. -/
def countingTenancy : Tenancy Unit Unit :=
  (start countingStart).run (countingTenants ++ countingActions)

/-- The next invocation of every tenant succeeds; the first one had no success before, the second one
had one and the third one had two. -/
theorem countingTenancy_ok : ∀ n < 3,
    (countingTenancy.tenant? n).map (fun i => (i.invoke countingTenancy.site).1) = some (.ok ()) ∧
      (start countingStart).successes n (countingTenants ++ countingActions) = n := by
  decide +kernel

/-- A tenant that moved in with its kernel still has it. -/
theorem exists_of_counting {n : Nat} {i : Interpreter Unit Unit} (hn : n < 3)
    (hi : ((start countingStart).run countingTenants).tenant? n = some i) :
    ∃ i', countingTenancy.tenant? n = some i' ∧ i'.graph = i.graph ∧ i'.kernels = i.kernels ∧
      (i'.invoke countingTenancy.site).1 = .ok () ∧
      (start countingStart).successes n (countingTenants ++ countingActions) = n := by
  obtain ⟨hok, hcount⟩ := countingTenancy_ok n hn
  obtain ⟨i', hi', hok⟩ := Option.map_eq_some_iff.mp hok
  have hrun : ((start countingStart).run countingTenants).run countingActions = countingTenancy :=
    (List.foldl_append ..).symm
  obtain ⟨hgraph, hkernels⟩ := same_run hi countingActions (hrun ▸ hi')
  exact ⟨i', hi', hgraph, hkernels, hok, hcount⟩

/-- The first tenant reports the median of three bytes and its first run, the second one its second run,
and the third one its third. -/
theorem run_counts_successes_of_three :
    (∃ i values m, countingTenancy.tenant? 0 = some i ∧
      (i.atStart countingTenancy.site).1.Reads (i.atStart countingTenancy.site).2 0 .u8 values ∧
      values.length = 3 ∧ IsMedian m values ∧
      (i.invoke countingTenancy.site).2.1.Shows (i.invoke countingTenancy.site).2.2 1 .u8 m ∧
      (i.invoke countingTenancy.site).2.1.Shows (i.invoke countingTenancy.site).2.2 2 .i32 1) ∧
    (∃ i, countingTenancy.tenant? 1 = some i ∧
      (i.invoke countingTenancy.site).2.1.Shows (i.invoke countingTenancy.site).2.2 2 .i32 2) ∧
    ∃ i, countingTenancy.tenant? 2 = some i ∧
      (i.invoke countingTenancy.site).2.1.Shows (i.invoke countingTenancy.site).2.2 0 .i32 3 ∧
      (i.invoke countingTenancy.site).2.1.Shows (i.invoke countingTenancy.site).2.2 1 .i32 3 := by
  have hsound : countingStart.Sound := Site.ofBuffer_sound ..
  refine ⟨?first, ?second, ?third⟩
  case first =>
    obtain ⟨i, hi, hgraph, hkernels, hok, hcount⟩ := exists_of_counting (n := 0) (by decide) rfl
    have hsingle : i.Single (SampleKernel.simpleStateful id) [0] [1, 2] := by
      refine ⟨?_, hkernels⟩
      rw [hgraph]
      exact ⟨_, rfl, rfl, rfl⟩
    have hruns := (run_counts_successes hsound hi hok).1 id 0 1 2 hsingle
    rw [hgraph, hcount] at hruns
    obtain ⟨values, m, hreads, hlen, hmedian, hmiddle, hshows, -⟩ :=
      hruns (by decide) (by decide) (by decide) (by decide) (by decide)
    exact ⟨i, values, m, hi, hreads, hlen, hmedian, hmiddle, hshows⟩
  case second =>
    obtain ⟨i, hi, hgraph, hkernels, hok, hcount⟩ := exists_of_counting (n := 1) (by decide) rfl
    have hsingle : i.Single (SampleKernel.simpleStateful id) [0] [1, 2] := by
      refine ⟨?_, hkernels⟩
      rw [hgraph]
      exact ⟨_, rfl, rfl, rfl⟩
    have hruns := (run_counts_successes hsound hi hok).1 id 0 1 2 hsingle
    rw [hgraph, hcount] at hruns
    obtain ⟨values, m, -, -, -, -, hshows, -⟩ :=
      hruns (by decide) (by decide) (by decide) (by decide) (by decide)
    exact ⟨i, hi, hshows⟩
  case third =>
    obtain ⟨i, hi, hgraph, hkernels, hok, hcount⟩ := exists_of_counting (n := 2) (by decide) rfl
    have hsingle : i.Single (SampleKernel.accumulate id) [0] [1] := by
      refine ⟨?_, hkernels⟩
      rw [hgraph]
      exact ⟨_, rfl, rfl, rfl⟩
    have hunwritten : ¬ Writes (countingTenants ++ countingActions) 2 0 := by
      rintro ⟨bytes, hmem⟩
      simp [countingTenants, countingActions] at hmem
    have hruns := (run_counts_successes hsound hi hok).2 id 0 1 hsingle
    rw [hgraph, hcount] at hruns
    exact ⟨i, hi, hruns (by decide) (by decide) hunwritten⟩

end Tenancy

end TensorArena
