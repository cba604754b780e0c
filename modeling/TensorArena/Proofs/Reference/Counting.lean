import TensorArena.Kernel.Sample
import TensorArena.Proofs.Reference.Running
import TensorArena.Proofs.Reference.Steps

/-!
# The counting kernel is a function

The sample kernel that counts a variable up keeps to `Kernel.Computes`, over any graph that gives it a
variable and an output: what it leaves in both follows from what the variable held.
-/

namespace TensorArena

/-! ## Counting -/

namespace SampleKernel

/-- Words one larger than those in the bytes, over so many bytes. -/
def countedUp (size : Nat) (bytes : Bytes) : Bytes :=
  Bytes.overlay (List.replicate size 0)
    (Bytes.ofWords DType.i32.size
      ((Bytes.words DType.i32.size bytes).map fun w => (w + 1) % DType.i32.modulus))

theorem length_countedUp (size : Nat) (bytes : Bytes) : (countedUp size bytes).length = size := by
  rw [countedUp, Bytes.length_overlay, List.length_replicate]

/-- Bytes that hold as many words as there are counted up are replaced by them. -/
theorem overlay_countedUp {before bytes : Bytes} {n : Nat} (hdvd : DType.i32.size ∣ bytes.length)
    (hbefore : before.length = n) (hlen : bytes.length = n) :
    Bytes.overlay before (Bytes.ofWords DType.i32.size
      ((Bytes.words DType.i32.size bytes).map fun w => (w + 1) % DType.i32.modulus)) =
      countedUp n bytes := by
  have hfull : ((Bytes.words DType.i32.size bytes).map fun w => (w + 1) % DType.i32.modulus).length *
      DType.i32.size = before.length := by
    rw [List.length_map, Bytes.length_words, Nat.div_mul_cancel hdvd, hlen, hbefore]
  rw [Bytes.overlay_ofWords hfull, hbefore]
  rfl

/-- Counting as a function of the variable. -/
def counting (g : Graph) (x y : Nat) : Meaning where
  initial := []
  apply inputs persistent :=
    let bytes := ((inputs.head?).join).getD []
    ⟨[countedUp (g.sizeOf x) bytes, countedUp (g.sizeOf y) bytes], persistent⟩

/-- Preparing the counting kernel asks for nothing. -/
theorem accumulate_prepares {free : σ → σ} {signature : Signature} {grant : Grant} {data : Bytes}
    (h : (accumulate free).Prepares signature grant data) : grant = {} ∧ data = [] := by
  obtain ⟨π, s, s', -, hrun, rfl⟩ := h
  unfold accumulate at hrun
  dsimp only at hrun
  split at hrun
  · cases hrun
    exact ⟨rfl, rfl⟩
  · cases hrun

/-- The words of the variable and of the output, which are equally many, are replaced by those of the
variable, each one larger. -/
theorem accumulate_ok {free : σ → σ} {o after : Operands} {outside outside' : σ}
    (h : (accumulate free).invoke.run (o, outside) = (.ok (), after, outside')) :
    ∃ state out, o.variableInput 0 = .ok state ∧ DType.i32.size ∣ state.slice.bytes.length ∧
      o.output 0 = .ok out ∧ out.dtype = .i32 ∧
      out.slice.bytes.length = state.slice.bytes.length ∧
      let ws := (Bytes.words DType.i32.size state.slice.bytes).map fun w =>
        (w + 1) % DType.i32.modulus
      after = (o.setInput 0 (state.slice.store DType.i32.size ws)).setOutput 0
        (out.slice.store DType.i32.size ws) := by
  -- Step by step, since the run succeeded.
  obtain ⟨state, _, h₁, h⟩ := Step.bind_ok h
  obtain ⟨hstate, rfl⟩ := KernelM.look_ok h₁
  obtain ⟨_, _, h₂, h⟩ := Step.bind_ok h
  obtain ⟨rfl, hdvd, rfl⟩ := KernelM.elements_ok h₂
  obtain ⟨_, _, h₃, h⟩ := Step.bind_ok h
  obtain rfl := KernelM.change_ok h₃
  obtain ⟨out, _, h₄, h⟩ := Step.bind_ok h
  obtain ⟨hout, rfl⟩ := KernelM.look_ok h₄
  obtain ⟨_, _, h₅, h⟩ := Step.bind_ok h
  have hdtype := KernelM.dtype_of_elements h₅
  obtain ⟨rfl, hdvd', rfl⟩ := KernelM.elements_ok h₅
  rw [List.length_map] at h
  split at h
  · cases h
  · rename_i hsame
    obtain ⟨-, hafter⟩ := KernelM.storeOutput_ok h
    have hequal : out.slice.bytes.length = state.slice.bytes.length := by
      rw [Decidable.not_not, Bytes.length_words, Bytes.length_words] at hsame
      rw [← Nat.div_mul_cancel hdvd, ← Nat.div_mul_cancel hdvd', hsame]
    exact ⟨state, out, hstate, hdvd, hout, hdtype, hequal, congrArg Prod.fst hafter⟩

/-- What the counting kernel leaves when it is handed a variable and an output. -/
theorem accumulate_run {free : σ → σ} {op : Operator} {t u : Tensor} {var out userData : Slice}
    {scratch : List Slice} {context : Option Int} {outside outside' : σ} {after : Operands}
    (h : (accumulate free).invoke.run
      (⟨op, [.var t var], [some (u, out)], scratch, userData, context⟩, outside) =
        (.ok (), after, outside')) :
    u.dtype = .i32 ∧ u.size = t.size ∧ after.writable.map (fun slice => slice.bytes) =
      [countedUp t.size var.bytes, countedUp u.size var.bytes] ++
        scratch.map (fun slice => slice.bytes) ++ [userData.bytes] := by
  obtain ⟨state, view, hstate, hdvd, hview, hdtype, hequal, rfl⟩ := accumulate_ok h
  obtain ⟨hvar, hvarlen⟩ := Tensor.viewOf_ok hstate
  have hview := Operands.output_ok rfl hview
  obtain ⟨hout, houtlen⟩ := Tensor.viewOf_ok hview
  rw [hvar] at hdvd hequal ⊢
  rw [hout] at hequal ⊢
  refine ⟨(Tensor.dtype_of_viewOf hview).symm.trans hdtype, ?_, ?_⟩
  · rw [← houtlen, ← hvarlen, hequal]
  · have hfirst := overlay_countedUp hdvd hvarlen hvarlen
    have hsecond := overlay_countedUp hdvd houtlen (hequal.symm.trans houtlen)
    rw [← hfirst, ← hsecond]
    simp only [Operands.writable, Operands.setOutput, Operands.setInput, List.modify_zero_cons,
      List.map_append]
    rfl

theorem accumulate_targets {g : Graph} {op : Operator} {x y : Nat} (hx : g.IsVar x)
    (hinputs : op.inputs = [some x]) (houtputs : op.outputs = [some y]) : op.targets g = [x, y] := by
  have hread : op.inputIds = [x] := by
    rw [Operator.inputIds, hinputs]
    rfl
  have hwritten : op.outputIds = [y] := by
    rw [Operator.outputIds, houtputs]
    rfl
  have hvar : [x].filter (fun id => g.IsVar id) = [x] :=
    List.filter_cons_of_pos (decide_eq_true hx)
  rw [Operator.targets, hread, hwritten, hvar]
  rfl

/-- What the counting kernel leaves when it is handed what its operator names: the output is of the
type and the size of the variable. -/
theorem accumulate_leaves {free : σ → σ} {g : Graph} {op : Operator} {x y : Nat} (hx : g.IsVar x)
    (hinputs : op.inputs = [some x]) (houtputs : op.outputs = [some y]) {grant : Grant}
    {o after : Operands} {outside outside' : σ} (hfits : o.Fits g op grant)
    (h : (accumulate free).invoke.run (o, outside) = (.ok (), after, outside')) :
    ∃ t u, g.tensors[x]? = some t ∧ g.tensors[y]? = some u ∧ u.dtype = .i32 ∧ u.size = t.size ∧
      after.writable.map (fun slice => slice.bytes) =
        ((counting g x y).apply (o.inputs.map Input.bytes) o.userData.bytes).written ++
          o.scratch.map (fun slice => slice.bytes) ++ [o.userData.bytes] := by
  obtain ⟨operator, inputs, outputs, scratch, userData, context⟩ := o
  obtain ⟨rfl, hin, hout, -, -, -, -⟩ := hfits
  -- One variable and one output were handed over.
  dsimp only at hin hout
  rw [hinputs] at hin
  rw [houtputs] at hout
  obtain ⟨input, _, hinput, hnone, rfl⟩ := List.forall₂_cons_left_iff.mp hin
  obtain rfl := List.forall₂_nil_left_iff.mp hnone
  obtain ⟨_, _, houtput, hnone, rfl⟩ := List.forall₂_cons_left_iff.mp hout
  obtain rfl := List.forall₂_nil_left_iff.mp hnone
  obtain ⟨u, out, rfl, hu⟩ := houtput.exists_tensor
  cases input with
  | absent => exact hinput.elim
  | shared t slice => exact absurd hx hinput.2.1
  | var t slice =>
    obtain ⟨hdtype, hsize, hafter⟩ := accumulate_run h
    refine ⟨t, u, hinput.1, hu, hdtype, hsize, ?_⟩
    rw [hafter, ← Graph.sizeOf_eq hinput.1, ← Graph.sizeOf_eq hu]
    rfl

/-- The counting kernel is described by a function. -/
theorem accumulate_computes (free : σ → σ) {g : Graph} {op : Operator} {x y : Nat} (hx : g.IsVar x)
    (hinputs : op.inputs = [some x]) (houtputs : op.outputs = [some y]) :
    (accumulate free).Computes g op (counting g x y) where
  initial grant data h := (accumulate_prepares h).2
  sizes inputs persistent := by
    rw [accumulate_targets hx hinputs houtputs]
    refine ⟨?_, rfl⟩
    simp only [counting, List.map_cons, List.map_nil, length_countedUp]
  results grant data h o outside after outside' hfits hrun := by
    obtain ⟨_, _, -, -, -, -, hafter⟩ := accumulate_leaves hx hinputs houtputs hfits hrun
    refine ⟨o.scratch.map fun slice => slice.bytes, ?_, hafter⟩
    rw [List.map_map, ← hfits.scratch]
    rfl

end SampleKernel

/-! ## A counter -/

namespace Interpreter

/-- An interpreter of the graph that counts. -/
def counter : Interpreter Unit Unit where
  graph := ⟨Graph.Sample.accumulator, rfl⟩
  kernels := [SampleKernel.accumulate id]
  strategy := .linear

end Interpreter

end TensorArena
