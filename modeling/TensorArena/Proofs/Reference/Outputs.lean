import TensorArena.Proofs.Reference.Running
import TensorArena.Proofs.Reference.Steps

/-!
# Kernels that write outputs only

An operator that reads no variable writes its outputs and nothing else. When its kernel keeps no
persistent data and leaves in every output what a function of the inputs gives, the kernel is
described by that function.
-/

namespace TensorArena

variable {σ : Type}

/-! ## Functions that give outputs only -/

namespace Operator

/-- Such an operator writes its outputs only. -/
def ReadsNoVariable (op : Operator) (g : Graph) : Prop :=
  ∀ id ∈ op.inputIds, ¬ g.IsVar id

instance (op : Operator) (g : Graph) : Decidable (op.ReadsNoVariable g) :=
  inferInstanceAs (Decidable (∀ id ∈ op.inputIds, ¬ g.IsVar id))

variable {op : Operator} {g : Graph}

theorem ReadsNoVariable.targets_eq (h : op.ReadsNoVariable g) : op.targets g = op.outputIds := by
  have hnone : op.inputIds.filter (fun id => g.IsVar id) = [] := by
    simpa [ReadsNoVariable] using h
  rw [targets, hnone, List.nil_append]

end Operator

namespace Meaning

/-- The persistent data stay as they are. -/
def Stateless (f : Meaning) : Prop :=
  ∀ inputs persistent, (f.apply inputs persistent).persistent = persistent

/-- The bytes of every output, as a function of the bytes of the inputs. -/
def ofOutputs (op : Operator) (bytes : List (Option Bytes) → Nat → Bytes) : Meaning where
  initial := []
  apply inputs persistent := ⟨op.outputIds.map (bytes inputs), persistent⟩

end Meaning

namespace Operands.Fits

variable {o : Operands} {g : Graph} {op : Operator} {grant : Grant}

theorem no_writable_input (h : o.Fits g op grant) (hvars : op.ReadsNoVariable g) :
    o.inputs.filterMap Input.writable = [] := by
  apply List.filterMap_eq_nil_iff.mpr
  intro input hinput
  obtain ⟨j, hj, rfl⟩ := List.getElem_of_mem hinput
  have hlen := h.inputs.length_eq
  have hfits : Input.Fits g op.inputs[j] o.inputs[j] :=
    List.forall₂_iff_get.mp h.inputs |>.2 j (by omega) hj
  have hmem : op.inputs[j] ∈ op.inputs := List.getElem_mem _
  cases hin : o.inputs[j] with
  | absent => rfl
  | shared t slice => rfl
  | var t slice =>
    rw [hin] at hfits
    cases hid : op.inputs[j] with
    | none =>
      rw [hid] at hfits
      exact hfits.elim
    | some id =>
      rw [hid] at hfits hmem
      exact absurd hfits.2.1 (hvars id (Operator.mem_inputIds.mpr hmem))

/-- Outputs hold what a function says, if each that is there does. -/
theorem outputs_eq (h : o.Fits g op grant) {after : List (Option (Tensor × Slice))}
    {bytes : Nat → Bytes}
    (hafter : ∀ j : Nat, (after[j]?).map (Option.map Prod.fst) =
      (o.outputs[j]?).map (Option.map Prod.fst))
    (hbytes : ∀ (j id : Nat) (t : Tensor) (slice : Slice), op.outputs[j]? = some (some id) →
      g.tensors[id]? = some t → after[j]? = some (some (t, slice)) → slice.bytes = bytes id) :
    after.map (Option.map fun out => out.2.bytes) = op.outputs.map (Option.map bytes) := by
  apply List.ext_getElem?
  intro j
  rw [List.getElem?_map, List.getElem?_map]
  have hj := hafter j
  cases hop : op.outputs[j]? with
  | none =>
    have hnone : o.outputs[j]? = none := by
      rw [List.getElem?_eq_none_iff, ← h.outputs.length_eq]
      exact List.getElem?_eq_none_iff.mp hop
    rw [hnone] at hj
    simpa using hj
  | some id? =>
    obtain ⟨hlt, rfl⟩ := List.getElem?_eq_some_iff.mp hop
    have hlt' : j < o.outputs.length := by
      rw [← h.outputs.length_eq]
      exact hlt
    have hfits : Slice.FitsOutput g op.outputs[j] o.outputs[j] :=
      List.forall₂_iff_get.mp h.outputs |>.2 j hlt hlt'
    rw [List.getElem?_eq_getElem hlt'] at hj
    cases hid : op.outputs[j] with
    | none =>
      rw [hid] at hfits
      cases hout : o.outputs[j] with
      | none => simpa [hout] using hj
      | some out =>
        rw [hout] at hfits
        exact hfits.elim
    | some id =>
      rw [hid] at hfits
      cases hout : o.outputs[j] with
      | none =>
        rw [hout] at hfits
        exact hfits.elim
      | some out =>
        rw [hout] at hfits hj
        obtain ⟨slice, hslice⟩ : ∃ slice, after[j]? = some (some (out.1, slice)) := by
          simpa using hj
        have hsame := hbytes j id out.1 slice (by rw [hop, hid]) hfits.1 hslice
        rw [hslice]
        simp [hsame]

end Operands.Fits

/-! ### Writing outputs -/

namespace Operands

variable (o : Operands) (i : Nat) (slice : Slice)

@[simp]
theorem inputs_setOutput : (o.setOutput i slice).inputs = o.inputs :=
  rfl

@[simp]
theorem scratch_setOutput : (o.setOutput i slice).scratch = o.scratch :=
  rfl

@[simp]
theorem userData_setOutput : (o.setOutput i slice).userData = o.userData :=
  rfl

@[simp]
theorem tensors_setOutput (j : Nat) :
    ((o.setOutput i slice).outputs[j]?).map (Option.map Prod.fst) =
      (o.outputs[j]?).map (Option.map Prod.fst) := by
  rw [setOutput, List.getElem?_modify]
  cases o.outputs[j]? with
  | none => rfl
  | some out =>
    by_cases hij : i = j
    · cases out with
      | none => simp
      | some out => simp [hij]
    · simp [hij]

@[simp]
theorem inputs_setScratch : (o.setScratch i slice).inputs = o.inputs :=
  rfl

@[simp]
theorem outputs_setScratch : (o.setScratch i slice).outputs = o.outputs :=
  rfl

@[simp]
theorem userData_setScratch : (o.setScratch i slice).userData = o.userData :=
  rfl

/-- Replacing a scratch block by one of its length changes no length. -/
theorem lengths_setScratch {before : Slice} (h : o.scratch[i]? = some before)
    (hlen : slice.bytes.length = before.bytes.length) :
    (o.setScratch i slice).scratch.map (fun block => block.bytes.length) =
      o.scratch.map (fun block => block.bytes.length) := by
  have hi := (List.getElem?_eq_some_iff.mp h).1
  rw [setScratch, List.map_set, hlen]
  apply List.ext_getElem?
  intro j
  by_cases hj : i = j
  · subst hj
    rw [List.getElem?_set_self (by simpa using hi)]
    simp [h]
  · rw [List.getElem?_set_ne hj]

theorem setOutput_self {t : Tensor} {before : Slice} (h : o.outputs[i]? = some (some (t, before))) :
    (o.setOutput i slice).outputs[i]? = some (some (t, slice)) := by
  simp [setOutput, h]

theorem setOutput_of_ne {j : Nat} (h : i ≠ j) :
    (o.setOutput i slice).outputs[j]? = o.outputs[j]? := by
  simp [setOutput, h]

end Operands

/-! ## Kernels that only write outputs -/

/-- A kernel that asks for no persistent data, and leaves in every output what a function of the
inputs gives, is described by that function. -/
theorem Kernel.computes_ofOutputs {k : Kernel σ} {g : Graph} {op : Operator}
    {bytes : List (Option Bytes) → Nat → Bytes} (hvars : op.ReadsNoVariable g)
    (hsize : ∀ inputs id, (bytes inputs id).length = g.sizeOf id)
    (hprepare : ∀ grant data, k.Prepares (.of g op) grant data → data = [])
    (hinvoke : ∀ grant o outside after outside', o.Fits g op grant →
      k.invoke.run (o, outside) = (.ok (), after, outside') →
      after.inputs = o.inputs ∧ after.userData = o.userData ∧
        after.scratch.map (fun slice => slice.bytes.length) =
          o.scratch.map (fun slice => slice.bytes.length) ∧
        after.outputs.map (Option.map fun out => out.2.bytes) =
          op.outputs.map (Option.map (bytes (o.inputs.map Input.bytes)))) :
    k.Computes g op (.ofOutputs op bytes) where
  initial := hprepare
  sizes inputs persistent := by
    rw [hvars.targets_eq]
    simp [Meaning.ofOutputs, hsize]
  results grant data _ o outside after outside' hfits hrun := by
    obtain ⟨hinputs, huser, hscratch, houtputs⟩ := hinvoke grant o outside after outside' hfits hrun
    have hnone : after.inputs.filterMap Input.writable = [] := by
      rw [hinputs]
      exact hfits.no_writable_input hvars
    have hwritten : (after.outputs.filterMap fun out => out.map (·.2)).map (fun slice => slice.bytes) =
        op.outputIds.map (bytes (o.inputs.map Input.bytes)) := by
      have hsame := congrArg (List.filterMap id) houtputs
      rw [List.filterMap_map, List.filterMap_map] at hsame
      rw [Operator.outputIds, List.map_filterMap, List.map_filterMap]
      simpa [Function.comp_def] using hsame
    refine ⟨after.scratch.map (fun slice => slice.bytes), ?_, ?_⟩
    · rw [List.map_map]
      exact hscratch.trans hfits.scratch
    · rw [Operands.writable, hnone, List.nil_append, List.map_append, List.map_append, hwritten, huser]
      rfl

end TensorArena
