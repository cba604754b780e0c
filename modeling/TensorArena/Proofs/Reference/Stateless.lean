import TensorArena.Kernel.Registry
import TensorArena.Proofs.Reference.Outputs

/-!
# Kernels without state

Addition, multiplication and two of the sample kernels keep nothing from one run to the next. For an
operator that reads no variable, and has no output that its kernel leaves alone, each of them is a
function from the bytes of the inputs to the bytes of the outputs.
-/

namespace TensorArena

variable {σ : Type}

/-- The type of a tensor's elements. -/
def Graph.dtypeOf (g : Graph) (id : Nat) : DType :=
  (g.tensors[id]?.map Tensor.dtype).getD .i32

/-! ## Arithmetic -/

namespace Elementwise

/-- The elements of an input for so many elements of the output, nothing if they do not fit. -/
def spread (n : Nat) (ws : List Nat) : List Nat :=
  match broadcast n ws with
  | .ok ws => ws
  | .error _ => []

theorem spread_of_broadcast {n : Nat} {ws ws' : List Nat} (h : broadcast n ws = .ok ws') :
    spread n ws = ws' ∧ ws'.length = n := by
  refine ⟨by rw [spread, h], ?_⟩
  unfold broadcast at h
  split at h
  · cases h
    assumption
  · split at h
    · cases h
      simp
    · cases h

/-- The words of an output of `n` elements. -/
def combined (op : Arithmetic) (d : DType) (n : Nat) (inputs : List (Option Bytes)) : List Nat :=
  List.zipWith (op.apply d) (spread n (Bytes.words d.size (argument inputs 0)))
    (spread n (Bytes.words d.size (argument inputs 1)))

/-- The bytes of an output. -/
def result (op : Arithmetic) (g : Graph) (inputs : List (Option Bytes)) (id : Nat) : Bytes :=
  Bytes.laid (g.sizeOf id) (g.dtypeOf id).size
    (combined op (g.dtypeOf id) (g.sizeOf id / (g.dtypeOf id).size) inputs)

variable {op : Arithmetic} {d : DType} {o after : Operands} {outside outside' : σ}

theorem run_ok (h : (run op d).run (o, outside) = (.ok (), after, outside')) :
    ∃ out, o.output 0 = .ok out ∧ d.size ∣ out.slice.bytes.length ∧
      ∃ ws, ws.length = out.slice.bytes.length / d.size ∧
        ws = combined op d (out.slice.bytes.length / d.size) (o.inputs.map Input.bytes) ∧
        after = o.setOutput 0 (out.slice.store d.size ws) := by
  unfold run at h
  obtain ⟨lhs, _, h₁, h⟩ := Step.bind_ok h
  obtain ⟨hlhs, rfl⟩ := KernelM.look_ok h₁
  obtain ⟨_, _, h₂, h⟩ := Step.bind_ok h
  obtain ⟨rfl, -, rfl⟩ := KernelM.elements_ok h₂
  obtain ⟨rhs, _, h₃, h⟩ := Step.bind_ok h
  obtain ⟨hrhs, rfl⟩ := KernelM.look_ok h₃
  obtain ⟨_, _, h₄, h⟩ := Step.bind_ok h
  obtain ⟨rfl, -, rfl⟩ := KernelM.elements_ok h₄
  obtain ⟨out, _, h₅, h⟩ := Step.bind_ok h
  obtain ⟨hout, rfl⟩ := KernelM.look_ok h₅
  obtain ⟨_, _, h₆, h⟩ := Step.bind_ok h
  obtain ⟨rfl, hdvd, rfl⟩ := KernelM.elements_ok h₆
  rw [Bytes.length_words] at h
  obtain ⟨ls, _, h₃, h⟩ := Step.bind_ok h
  obtain ⟨hls, rfl⟩ := Step.liftExcept_ok h₃
  obtain ⟨rs, _, h₄, h⟩ := Step.bind_ok h
  obtain ⟨hrs, rfl⟩ := Step.liftExcept_ok h₄
  obtain ⟨-, hafter⟩ := KernelM.storeOutput_ok h
  obtain ⟨hls, hlslen⟩ := spread_of_broadcast hls
  obtain ⟨hrs, hrslen⟩ := spread_of_broadcast hrs
  refine ⟨out, hout, hdvd, _, ?_, ?_, congrArg Prod.fst hafter⟩
  · rw [List.length_zipWith, hlslen, hrslen, Nat.min_self]
  · rw [combined, ← Operands.input_ok hlhs, ← Operands.input_ok hrhs, hls, hrs]

theorem invoke_ok {free : σ → σ}
    (h : (kernel op free).invoke.run (o, outside) = (.ok (), after, outside')) :
    ∃ out, o.output 0 = .ok out ∧ (run op out.dtype).run (o, outside) = (.ok (), after, outside') := by
  obtain ⟨out, _, h₁, h⟩ := Step.bind_ok h
  obtain ⟨hout, rfl⟩ := KernelM.look_ok h₁
  by_cases hd : supports out.dtype = true
  · rw [if_pos hd] at h
    exact ⟨out, hout, h⟩
  · rw [if_neg hd] at h
    cases h

/-- Addition and multiplication are described by functions of their first two inputs. -/
theorem kernel_computes (op : Arithmetic) (free : σ → σ) {g : Graph} {operator : Operator}
    (hvars : operator.ReadsNoVariable g) (houtputs : operator.outputs.length ≤ 1) :
    (kernel op free).Computes g operator (.ofOutputs operator (result op g)) := by
  apply Kernel.computes_ofOutputs hvars
  · intro inputs id
    exact Bytes.length_laid ..
  · intro grant data h
    obtain ⟨π, s, s', -, hrun, rfl⟩ := h
    unfold kernel at hrun
    dsimp only at hrun
    split at hrun
    · cases hrun
      rfl
    · cases hrun
  · intro grant o outside after outside' hfits h
    obtain ⟨out, hout, hrun⟩ := invoke_ok h
    obtain ⟨_, hout', hdvd, ws, hlen, hws, rfl⟩ := run_ok hrun
    cases hout.symm.trans hout'
    refine ⟨rfl, rfl, rfl, hfits.outputs_eq (fun j => o.tensors_setOutput ..) ?_⟩
    intro j id t slice hid ht hslice
    -- The first output is the only one.
    obtain rfl : j = 0 := by
      have := (List.getElem?_eq_some_iff.mp hid).1
      omega
    obtain ⟨t', ht', hview⟩ := Operands.output_found hout
    rw [o.setOutput_self 0 _ ht'] at hslice
    cases hslice
    have hsize : out.slice.bytes.length = g.sizeOf id := by
      rw [(Tensor.viewOf_ok hview).2, Graph.sizeOf_eq ht]
    have hdtype : out.dtype = g.dtypeOf id := by
      rw [Tensor.dtype_of_viewOf hview, Graph.dtypeOf, ht]
      rfl
    rw [result, ← hsize, ← hdtype, ← hws]
    apply Bytes.overlay_ofWords
    rw [hlen, Nat.div_mul_cancel hdvd]

end Elementwise

/-! ## Sums of first elements -/

namespace SampleKernel

variable {o after : Operands} {outside outside' : σ}

/-- The first element of an input. -/
def firstOf (d : DType) (inputs : List (Option Bytes)) (i : Nat) : Nat :=
  (Bytes.words d.size (argument inputs i)).headD 0

/-- An output that holds one 32-bit integer throughout. -/
def filled (g : Graph) (w : Nat) (id : Nat) : Bytes :=
  Bytes.laid (g.sizeOf id) DType.i32.size (List.replicate (g.sizeOf id / DType.i32.size) w)

/-- The sum that is offered once or twice. -/
def mockSum (inputs : List (Option Bytes)) : Nat :=
  (firstOf .i32 inputs 0 + firstOf .i32 inputs 1) % DType.i32.modulus

/-- The sum of three numbers of different types. -/
def multipleSum (inputs : List (Option Bytes)) : Nat :=
  DType.i32.ofInt (DType.i32.toInt (firstOf .i32 inputs 0) + DType.i8.toInt (firstOf .i8 inputs 1) +
    DType.i32.toInt (firstOf .i32 inputs 2))

/-- What filling an output leaves in it. -/
theorem bytes_of_fill {g : Graph} {id i : Nat} {t t' : Tensor} {v : View} {slice : Slice} {w : Nat}
    (ht : g.tensors[id]? = some t) (hview : t'.viewOf v.slice = .ok v)
    (hout : o.outputs[i]? = some (some (t', v.slice))) (hdvd : DType.i32.size ∣ v.slice.bytes.length)
    (hslice : (o.setOutput i (v.slice.fill DType.i32.size w)).outputs[i]? = some (some (t, slice))) :
    slice.bytes = filled g w id := by
  rw [o.setOutput_self i _ hout] at hslice
  cases hslice
  have hsize : v.slice.bytes.length = g.sizeOf id := by
    rw [(Tensor.viewOf_ok hview).2, Graph.sizeOf_eq ht]
  rw [filled, ← hsize]
  apply Bytes.overlay_ofWords
  rw [List.length_replicate, Nat.div_mul_cancel hdvd]

/-- A kernel that has read the first element of an input goes on with it, and with all as it was. -/
theorem firstOf_ok {α : Type} {st st' : Operands × σ} {i : Nat} {d : DType} {f : Nat → KernelM σ α}
    {a : α} (h : ExceptT.run (KernelM.look (·.input i) >>= fun v => KernelM.first v d >>= f) st =
      (.ok a, st')) :
    ExceptT.run (f (firstOf d (st.1.inputs.map Input.bytes) i)) st = (.ok a, st') := by
  obtain ⟨v, _, hlook, hrest⟩ := Step.bind_ok h
  obtain ⟨hinput, rfl⟩ := KernelM.look_ok hlook
  obtain ⟨w, _, hfirst, hnext⟩ := Step.bind_ok hrest
  obtain ⟨rfl, rfl⟩ := KernelM.first_ok hfirst
  rw [firstOf, ← Operands.input_ok hinput]
  exact hnext

theorem multipleInputs_ok {free : σ → σ}
    (h : (multipleInputs free).invoke.run (o, outside) = (.ok (), after, outside')) :
    ∃ out, o.output 0 = .ok out ∧ DType.i32.size ∣ out.slice.bytes.length ∧
      after = o.setOutput 0
        (out.slice.fill DType.i32.size (multipleSum (o.inputs.map Input.bytes))) := by
  have h := firstOf_ok (firstOf_ok (firstOf_ok h))
  obtain ⟨out, _, hlook, h⟩ := Step.bind_ok h
  obtain ⟨hout, rfl⟩ := KernelM.look_ok hlook
  obtain ⟨hdvd, hafter⟩ := KernelM.fillOutput_ok h
  exact ⟨out, hout, hdvd, congrArg Prod.fst hafter⟩

/-- Adding three numbers is described by a function. -/
theorem multipleInputs_computes (free : σ → σ) {g : Graph} {op : Operator}
    (hvars : op.ReadsNoVariable g) (houtputs : op.outputs.length ≤ 1) :
    (multipleInputs free).Computes g op
      (.ofOutputs op fun inputs => filled g (multipleSum inputs)) := by
  apply Kernel.computes_ofOutputs hvars
  · intro inputs id
    exact Bytes.length_laid ..
  · intro grant data h
    obtain ⟨π, s, s', -, hrun, rfl⟩ := h
    cases hrun
    rfl
  · intro grant o outside after outside' hfits h
    obtain ⟨out, hout, hdvd, rfl⟩ := multipleInputs_ok h
    refine ⟨rfl, rfl, rfl, hfits.outputs_eq (fun j => o.tensors_setOutput ..) ?_⟩
    intro j id t slice hid ht hslice
    obtain rfl : j = 0 := by
      have := (List.getElem?_eq_some_iff.mp hid).1
      omega
    obtain ⟨t', ht', hview⟩ := Operands.output_found hout
    exact bytes_of_fill ht hview ht' hdvd hslice

/-- The scratch block ends up with other bytes, but as many; the first output, and the second one if
it is there, with the sum. -/
theorem mockCustom_ok {free : σ → σ}
    (h : (mockCustom free).invoke.run (o, outside) = (.ok (), after, outside')) :
    ∃ block out, o.scratch[0]? = some block ∧ o.output 0 = .ok out ∧
      DType.i32.size ∣ out.slice.bytes.length ∧
      let sum := mockSum (o.inputs.map Input.bytes)
      let once := (o.setScratch 0 (block.store DType.i32.size [sum])).setOutput 0
        (out.slice.fill DType.i32.size sum)
      (once.output? 1 = .ok none ∧ after = once ∨
        ∃ second, once.output? 1 = .ok (some second) ∧
          DType.i32.size ∣ second.slice.bytes.length ∧
          after = once.setOutput 1 (second.slice.fill DType.i32.size sum)) := by
  have h := firstOf_ok (firstOf_ok h)
  obtain ⟨block, _, h₁, h⟩ := Step.bind_ok h
  obtain ⟨hblock, rfl⟩ := KernelM.look_ok h₁
  obtain ⟨staged, _, h₂, h⟩ := Step.bind_ok h
  obtain ⟨-, rfl⟩ := Step.liftExcept_ok h₂
  dsimp only at h
  by_cases hempty : staged.isEmpty = true
  · rw [if_pos hempty] at h
    cases h
  · rw [if_neg hempty] at h
    obtain ⟨_, _, h₃, h⟩ := Step.bind_ok h
    cases h₃
    obtain ⟨out, _, h₄, h⟩ := Step.bind_ok h
    obtain ⟨hout, rfl⟩ := KernelM.look_ok h₄
    obtain ⟨_, _, h₅, h⟩ := Step.bind_ok h
    obtain ⟨hdvd, rfl⟩ := KernelM.fillOutput_ok h₅
    obtain ⟨found, _, h₆, h⟩ := Step.bind_ok h
    obtain ⟨hfound, rfl⟩ := KernelM.look_ok h₆
    refine ⟨block, out, Operands.scratchBlock_ok hblock, hout, hdvd, ?_⟩
    cases found with
    | none =>
      cases h
      exact .inl ⟨hfound, rfl⟩
    | some second =>
      obtain ⟨hdvd', hafter⟩ := KernelM.fillOutput_ok h
      exact .inr ⟨second, hfound, hdvd', congrArg Prod.fst hafter⟩

/-- Adding two numbers, once or twice over, is described by a function. -/
theorem mockCustom_computes (free : σ → σ) {g : Graph} {op : Operator}
    (hvars : op.ReadsNoVariable g) (houtputs : op.outputs.length ≤ 2) :
    (mockCustom free).Computes g op (.ofOutputs op fun inputs => filled g (mockSum inputs)) := by
  apply Kernel.computes_ofOutputs hvars
  · intro inputs id
    exact Bytes.length_laid ..
  · intro grant data h
    obtain ⟨π, s, s', -, hrun, rfl⟩ := h
    cases hrun
    rfl
  · intro grant o outside after outside' hfits h
    obtain ⟨block, out, hblock, hout, hdvd, hafter⟩ := mockCustom_ok h
    obtain ⟨t₀, ht₀, hview₀⟩ := Operands.output_found hout
    have hscratch := o.lengths_setScratch 0 (block.store DType.i32.size
      [mockSum (o.inputs.map Input.bytes)]) hblock (Bytes.length_overlay ..)
    rcases hafter with ⟨hnone, rfl⟩ | ⟨second, hsecond, hdvd', rfl⟩
    · refine ⟨rfl, rfl, hscratch, hfits.outputs_eq (fun j => by simp) ?_⟩
      intro j id t slice hid ht hslice
      by_cases hj : j = 0
      · subst hj
        exact bytes_of_fill ht hview₀ ht₀ hdvd hslice
      · -- The second output is left out.
        obtain rfl : j = 1 := by
          have := (List.getElem?_eq_some_iff.mp hid).1
          omega
        have hjoin := Operands.output?_none hnone
        rw [hslice] at hjoin
        cases hjoin
    · refine ⟨rfl, rfl, hscratch, hfits.outputs_eq (fun j => by simp) ?_⟩
      intro j id t slice hid ht hslice
      by_cases hj : j = 0
      · subst hj
        rw [Operands.setOutput_of_ne _ 1 _ (by decide)] at hslice
        exact bytes_of_fill ht hview₀ ht₀ hdvd hslice
      · obtain rfl : j = 1 := by
          have := (List.getElem?_eq_some_iff.mp hid).1
          omega
        obtain ⟨t₁, ht₁, hview₁⟩ := Operands.output?_some hsecond
        exact bytes_of_fill ht hview₁ ht₁ hdvd' hslice

end SampleKernel

/-! ## Graphs without state -/

namespace Operator

/-- The operator reads no variable, and its kernel is one of those above and writes all its outputs. An
operator with more outputs than its kernel writes is none: what lies in the others is not computed. -/
structure Stateless (op : Operator) (g : Graph) : Prop where
  noVariable : op.ReadsNoVariable g
  writes : (op.code = .add ∨ op.code = .mul ∨ op.code = .multipleInputs) ∧ op.outputs.length ≤ 1 ∨
    op.code = .mockCustom ∧ op.outputs.length ≤ 2

instance (op : Operator) (g : Graph) : Decidable (op.Stateless g) :=
  decidable_of_iff (op.ReadsNoVariable g ∧
    ((op.code = .add ∨ op.code = .mul ∨ op.code = .multipleInputs) ∧ op.outputs.length ≤ 1 ∨
      op.code = .mockCustom ∧ op.outputs.length ≤ 2))
    ⟨fun h => ⟨h.1, h.2⟩, fun h => ⟨h.noVariable, h.writes⟩⟩

/-- What such an operator computes. -/
def meaning (g : Graph) (op : Operator) : Meaning :=
  .ofOutputs op <|
    if op.code = .add then Elementwise.result .add g
    else if op.code = .mul then Elementwise.result .mul g
    else if op.code = .mockCustom then fun inputs => SampleKernel.filled g (SampleKernel.mockSum inputs)
    else fun inputs => SampleKernel.filled g (SampleKernel.multipleSum inputs)

theorem meaning_stateless (g : Graph) (op : Operator) : (op.meaning g).Stateless :=
  fun _ _ => rfl

theorem Stateless.computes {op : Operator} {g : Graph} (h : op.Stateless g) {free : σ → σ}
    {factory : Factory σ} (hfactory : (Registry.samples free).resolver op.code = some factory)
    (before : σ) : (factory before).1.Computes g op (op.meaning g) := by
  obtain ⟨hvars, ⟨hcode | hcode | hcode, hlen⟩ | ⟨hcode, hlen⟩⟩ := h
  · rw [hcode] at hfactory
    cases hfactory
    rw [meaning, if_pos hcode]
    exact Elementwise.kernel_computes .add free hvars hlen
  · rw [hcode] at hfactory
    cases hfactory
    rw [meaning, hcode]
    exact Elementwise.kernel_computes .mul free hvars hlen
  · rw [hcode] at hfactory
    cases hfactory
    rw [meaning, hcode]
    exact SampleKernel.multipleInputs_computes free hvars hlen
  · rw [hcode] at hfactory
    cases hfactory
    rw [meaning, hcode]
    exact SampleKernel.mockCustom_computes free hvars hlen

end Operator

namespace Interpreter

variable {π : Type}

/-- Every kernel was made by the factory that the resolver has for the code of its operator. -/
theorem resolve_kernels {resolver : Resolver σ} {made kernels : List (Kernel σ)}
    {ops : List Operator} {outside outside' : σ}
    (h : resolve resolver made ops outside = (.ok kernels, outside')) :
    ∃ rest, kernels = made ++ rest ∧ List.Forall₂ (fun op kernel => ∃ factory before,
      resolver op.code = some factory ∧ kernel = (factory before).1) ops rest := by
  induction ops generalizing made outside with
  | nil =>
    cases h
    exact ⟨[], by simp, .nil⟩
  | cons op ops ih =>
    unfold resolve at h
    split at h
    · cases h
    · rename_i factory hfactory
      obtain ⟨rest, rfl, hrest⟩ := ih h
      refine ⟨(factory outside).1 :: rest, by simp, .cons ⟨factory, outside, ?_, rfl⟩ hrest⟩
      unfold factoryOf at hfactory
      dsimp only at hfactory
      split at hfactory
      · cases hfactory
      · split at hfactory
        · rename_i hfound
          cases hfactory
          exact hfound
        · cases hfactory

theorem create_kernels {g : CheckedGraph} {resolver : Resolver σ} {s s' : Site σ π}
    {i : Interpreter σ π} (h : create g resolver s = (.ok i, s')) :
    List.Forall₂ (fun op kernel => ∃ factory before,
      resolver op.code = some factory ∧ kernel = (factory before).1) g.operators i.kernels := by
  unfold create at h
  split at h
  · cases h
  · rename_i kernels outside hresolve
    cases h
    obtain ⟨rest, rfl, hrest⟩ := resolve_kernels hresolve
    exact hrest

/-- The kernels that an interpreter is created with over a graph without state are described by
functions. -/
theorem computed_of_create {g : CheckedGraph} {free : σ → σ} {s s' : Site σ π}
    {i : Interpreter σ π} (h : create g (Registry.samples free).resolver s = (.ok i, s'))
    (hstateless : ∀ op ∈ g.operators, op.Stateless g.toGraph) :
    g.toGraph.Computed i.kernels (g.operators.map (Operator.meaning g.toGraph)) where
  kernels_length := (create_kernels h).length_eq.symm
  meanings_length := List.length_map ..
  computes k op kernel f hop hkernel hf := by
    obtain ⟨hlt, rfl⟩ := List.getElem?_eq_some_iff.mp hop
    obtain ⟨hlt', rfl⟩ := List.getElem?_eq_some_iff.mp hkernel
    obtain ⟨factory, before, hfactory, hmade⟩ : ∃ factory before,
        (Registry.samples free).resolver g.operators[k].code = some factory ∧
          i.kernels[k] = (factory before).1 :=
      (List.forall₂_iff_get.mp (create_kernels h)).2 k hlt hlt'
    rw [List.getElem?_map, hop] at hf
    cases hf
    rw [hmade]
    exact (hstateless _ (List.getElem_mem hlt)).computes hfactory before

end Interpreter

end TensorArena
