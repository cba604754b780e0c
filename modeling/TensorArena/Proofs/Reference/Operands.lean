import TensorArena.Proofs.Interpreter.Calls
import TensorArena.Proofs.Reference.Meaning

/-!
# What a kernel is handed

Laws of the stores of the reference, the tensors that an operator may write, and the operands that
binding hands to a kernel, seen from the allotment: which ranges can be written, and that every slice
is as `Kernel.Computes` wants it.
-/

namespace TensorArena

variable {σ π : Type}

/-! ## Stores -/

namespace Stores

@[simp]
theorem tensors_keep (v : Stores) (k : Nat) (bytes : Bytes) : (v.keep k bytes).tensors = v.tensors :=
  rfl

@[simp]
theorem persistent_putAll (v : Stores) (pairs : List (Nat × Bytes)) :
    (v.putAll pairs).persistent = v.persistent := by
  induction pairs generalizing v with
  | nil => rfl
  | cons p rest ih => exact (ih (v.put p.1 p.2)).trans rfl

theorem persistent_keep_of_ne (v : Stores) {k j : Nat} (h : j ≠ k) (bytes : Bytes) :
    (v.keep k bytes).persistent j = v.persistent j :=
  if_neg h

theorem tensors_put_self (v : Stores) (id : Nat) (bytes : Bytes) :
    (v.put id bytes).tensors id = bytes :=
  if_pos rfl

theorem tensors_put_of_ne (v : Stores) {id x : Nat} (h : x ≠ id) (bytes : Bytes) :
    (v.put id bytes).tensors x = v.tensors x :=
  if_neg h

theorem tensors_putAll_of_notMem (v : Stores) {pairs : List (Nat × Bytes)} {id : Nat}
    (h : id ∉ pairs.map Prod.fst) : (v.putAll pairs).tensors id = v.tensors id := by
  induction pairs generalizing v with
  | nil => rfl
  | cons p rest ih =>
    rw [List.map_cons, List.mem_cons, not_or] at h
    exact (ih (v.put p.1 p.2) h.2).trans (v.tensors_put_of_ne h.1 p.2)

theorem tensors_putAll_of_mem (v : Stores) {pairs : List (Nat × Bytes)}
    (hnodup : (pairs.map Prod.fst).Nodup) {id : Nat} {bytes : Bytes} (h : (id, bytes) ∈ pairs) :
    (v.putAll pairs).tensors id = bytes := by
  induction pairs generalizing v with
  | nil => cases h
  | cons p rest ih =>
    rw [List.map_cons, List.nodup_cons] at hnodup
    rcases List.mem_cons.mp h with heq | hmem
    · subst heq
      exact ((v.put id bytes).tensors_putAll_of_notMem hnodup.1).trans (v.tensors_put_self id bytes)
    · exact ih (v.put p.1 p.2) hnodup.2 hmem

end Stores

/-! ## Targets -/

namespace Operator

variable {g : Graph} {op : Operator} {k : Nat}

theorem isVar_iff {id : Nat} {t : Tensor} (ht : g.tensors[id]? = some t) :
    g.IsVar id ↔ t.kind = .var := by
  unfold Graph.IsVar
  rw [ht]
  simp

/-- An operator writes nothing twice. -/
theorem targets_nodup (hc : g.Checked) (hop : g.operators[k]? = some op) :
    (op.targets g).Nodup := by
  have hmem := List.mem_of_getElem? hop
  unfold targets
  refine List.nodup_append.mpr ⟨?_, hc.written_once op hmem, ?_⟩
  · rw [List.nodup_iff_pairwise_ne, List.pairwise_filter]
    refine (hc.repeated op hmem).imp ?_
    intro id id' hrel hv _ heq
    obtain ⟨t, ht, hkind⟩ := of_decide_eq_true hv
    exact hrel heq t ht hkind
  · intro id hid id' hid' heq
    subst heq
    obtain ⟨t, ht, hkind⟩ := of_decide_eq_true (List.mem_filter.mp hid).2
    obtain ⟨⟨t', ht', hkind'⟩, -⟩ := hc.write k op hop id hid'
    cases ht.symm.trans ht'
    rw [hkind] at hkind'
    cases hkind'

theorem mem_operandIds_of_mem_targets {id : Nat} (h : id ∈ op.targets g) : id ∈ op.operandIds := by
  rcases List.mem_append.mp h with h | h
  · exact List.mem_append_left _ (List.mem_of_mem_filter h)
  · exact List.mem_append_right _ h

/-- What has the sizes of the targets is one piece for each of them. -/
theorem length_written {written : List Bytes}
    (h : written.map List.length = (op.targets g).map g.sizeOf) :
    written.length = (op.targets g).length := by
  have hlen := congrArg List.length h
  rwa [List.length_map, List.length_map] at hlen

theorem map_fst_zip_written {written : List Bytes}
    (h : written.map List.length = (op.targets g).map g.sizeOf) :
    ((op.targets g).zip written).map Prod.fst = op.targets g :=
  List.map_fst_zip (Nat.le_of_eq (length_written h).symm)

end Operator

namespace Allotment

variable {a : Allotment} {g : Graph} {tables : Tables} {m : Memory} {k : Nat} {op : Operator}
  {grant : Grant}

/-- The range of a tensor. -/
def rangeOf (a : Allotment) (id : Nat) : ByteRange :=
  (a.spans[id]?.map Span.range).getD .empty

theorem rangeOf_eq {id : Nat} {span : Span} (h : a.spans[id]? = some span) :
    a.rangeOf id = span.range := by
  rw [rangeOf, h]
  rfl

/-- What an operand comes from, if it is no constant. -/
theorem source_eq_of_data (h : a.Fits g tables) {id : Nat} {t : Tensor}
    (ht : g.tensors[id]? = some t) (hd : t.data = none) :
    a.source g (some id) = .placed t (a.rangeOf id) := by
  obtain ⟨span, hspan⟩ := h.exists_span ht
  unfold source
  dsimp only
  rw [ht, hspan]
  dsimp only
  rw [hd, rangeOf_eq hspan]

theorem source_eq_of_constant (h : a.Fits g tables) {id : Nat} {t : Tensor}
    (ht : g.tensors[id]? = some t) {data : Packed} (hd : t.data = some data) :
    a.source g (some id) = .constant t data := by
  obtain ⟨span, hspan⟩ := h.exists_span ht
  unfold source
  dsimp only
  rw [ht, hspan]
  dsimp only
  rw [hd]

/-- The ranges that a kernel may write are those of the operator's targets, its scratch blocks and its
persistent data. -/
theorem writable_eq (hc : g.Checked) (h : a.Fits g tables) (hop : g.operators[k]? = some op)
    (row : OpRow) :
    (a.sources g op row).writable row =
      (op.targets g).map a.rangeOf ++ (a.pieces row).map Span.range ++ [row.userRange] := by
  have hmem := List.mem_of_getElem? hop
  have hinputs : (op.inputs.map (a.source g)).filterMap Source.varRange? =
      (op.inputIds.filter fun id => g.IsVar id).map a.rangeOf := by
    rw [List.filterMap_map, Operator.inputIds, ← List.filterMap_eq_filter, List.map_filterMap,
      List.filterMap_filterMap]
    refine List.filterMap_congr fun o ho => ?_
    cases o with
    | none => rfl
    | some id =>
      have hid : id ∈ op.operandIds := List.mem_append_left _ (Operator.mem_inputIds.mpr ho)
      obtain ⟨t, ht⟩ := hc.exists_operand hmem hid
      have hguard : (a.source g (some id)).varRange? =
          (Option.guard (fun id => decide (g.IsVar id)) id).map a.rangeOf := by
        -- Only variables can be written, and all of them lie in the arena.
        by_cases hv : g.IsVar id
        · obtain ⟨hd, hvar⟩ := Tensor.data_of_kind_var ((Operator.isVar_iff ht).mp hv)
          have hsome : Option.guard (fun id => decide (g.IsVar id)) id = some id :=
            Option.guard_eq_some_iff.mpr ⟨rfl, decide_eq_true hv⟩
          rw [source_eq_of_data h ht hd, hsome]
          exact if_pos hvar
        · have hnone : Option.guard (fun id => decide (g.IsVar id)) id = none :=
            Option.guard_eq_none_iff.mpr (decide_eq_false hv)
          rw [hnone]
          cases hd : t.data with
          | some data =>
            rw [source_eq_of_constant h ht hd]
            rfl
          | none =>
            rw [source_eq_of_data h ht hd]
            exact if_neg fun hvar => hv ((Operator.isVar_iff ht).mpr (Tensor.kind_eq_var hd hvar))
      exact hguard
  have houtputs : (op.outputs.map (a.source g)).filterMap Source.range? =
      op.outputIds.map a.rangeOf := by
    rw [List.filterMap_map, Operator.outputIds, List.map_filterMap]
    refine List.filterMap_congr fun o ho => ?_
    cases o with
    | none => rfl
    | some id =>
      obtain ⟨⟨t, ht, hkind⟩, -⟩ := hc.write k op hop id (Operator.mem_outputIds.mpr ho)
      rw [Function.comp, source_eq_of_data h ht (Tensor.data_of_kind_activation hkind).1]
      rfl
  rw [Sources.writable, sources, hinputs, houtputs, Operator.targets, List.map_append]

/-! ## What a kernel is handed -/

/-- The bytes of a tensor in the arena fit it. -/
theorem Fits.slice_fits (h : a.Fits g tables) (hsize : a.stages.start ≤ m.size) {id : Nat} {t : Tensor}
    (hs : g.Stored id t) : (m.slice (a.rangeOf id)).Fits t := by
  obtain ⟨span, hspan, -, hlen, hdvd, -, hstop⟩ := h.stored hs
  rw [rangeOf_eq hspan]
  refine ⟨hdvd, ?_⟩
  rw [hs.data_eq_none]
  exact (m.length_read_of_le (Nat.le_trans hstop hsize)).trans hlen

theorem input_fits (hc : g.Checked) (h : a.Fits g tables) (hop : g.operators[k]? = some op)
    (hsize : a.stages.start ≤ m.size) {o : Option Nat} (ho : o ∈ op.inputs) :
    Input.Fits g o (m.input (a.source g o)) := by
  cases o with
  | none => exact trivial
  | some id =>
    have hid : id ∈ op.operandIds := List.mem_append_left _ (Operator.mem_inputIds.mpr ho)
    obtain ⟨t, ht⟩ := hc.exists_operand (List.mem_of_getElem? hop) hid
    cases hd : t.data with
    | some data =>
      rw [source_eq_of_constant h ht hd]
      refine ⟨ht, fun hv => Tensor.kind_ne_var hd ((Operator.isVar_iff ht).mp hv), Nat.dvd_zero _, ?_⟩
      rw [hd]
    | none =>
      have hfits := h.slice_fits hsize (Graph.stored_of_operand hop hid ht hd)
      rw [source_eq_of_data h ht hd, Memory.input_placed]
      split
      · rename_i hvar
        exact ⟨ht, (Operator.isVar_iff ht).mpr (Tensor.kind_eq_var hd hvar), hfits⟩
      · rename_i hvar
        refine ⟨ht, fun hv => hvar ?_, hfits⟩
        exact (Tensor.data_of_kind_var ((Operator.isVar_iff ht).mp hv)).2

theorem output_fits (hc : g.Checked) (h : a.Fits g tables) (hop : g.operators[k]? = some op)
    (hsize : a.stages.start ≤ m.size) {o : Option Nat} (ho : o ∈ op.outputs) :
    Slice.FitsOutput g o (m.output (a.source g o)) := by
  cases o with
  | none => exact trivial
  | some id =>
    obtain ⟨⟨t, ht, hkind⟩, -⟩ := hc.write k op hop id (Operator.mem_outputIds.mpr ho)
    have hd := (Tensor.data_of_kind_activation hkind).1
    have hid : id ∈ op.operandIds := List.mem_append_right _ (Operator.mem_outputIds.mpr ho)
    rw [source_eq_of_data h ht hd]
    exact ⟨ht, h.slice_fits hsize (Graph.stored_of_operand hop hid ht hd)⟩

/-- What binding hands to a kernel fits. -/
theorem operands_fit (hc : g.Checked) (h : a.Fits g tables) (hb : a.Bindable g m)
    (hop : g.operators[k]? = some op) (hg : a.grants[k]? = some grant) (context : Option Int) :
    (m.operands op (a.rowOf k grant) context (a.sources g op (a.rowOf k grant))).Fits g op grant where
  operator_eq := rfl
  inputs := by
    show List.Forall₂ _ op.inputs ((op.inputs.map (a.source g)).map m.input)
    rw [List.map_map]
    refine List.forall₂_map_right_iff.mpr (List.forall₂_same.mpr fun o ho => ?_)
    exact input_fits hc h hop hb.start_le ho
  outputs := by
    show List.Forall₂ _ op.outputs ((op.outputs.map (a.source g)).map m.output)
    rw [List.map_map]
    refine List.forall₂_map_right_iff.mpr (List.forall₂_same.mpr fun o ho => ?_)
    exact output_fits hc h hop hb.start_le ho
  scratch := by
    show (((a.pieces (a.rowOf k grant)).map Span.range).map m.slice).map _ = _
    rw [List.map_map, List.map_map, ← (h.pieces_apart hg hb.number).1]
    refine List.map_congr_left fun span hspan => ?_
    obtain ⟨-, hstop, -⟩ := h.scratch_range (mem_scratch_of_mem_pieces hspan)
    obtain ⟨h₁, h₂, h₃, h₄, h₅, h₆⟩ := h.falling
    have := hb.start_le
    exact m.length_read_of_le (by simp only [ByteRange.stop] at hstop; omega)
  scratch_aligned := by
    intro slice hslice
    obtain ⟨r, hr, rfl⟩ := List.mem_map.mp hslice
    obtain ⟨span, hspan, rfl⟩ := List.mem_map.mp hr
    exact (h.scratch_range (mem_scratch_of_mem_pieces hspan)).1
  userData := by
    obtain ⟨-, -, hstop⟩ := h.userRange hg
    refine (m.length_read_of_le (Nat.le_trans hstop hb.start_le)).trans ?_
    rw [h.userRange_rowOf hg]
    cases grant.userData with
    | none => rfl
    | some r => rfl
  userData_aligned := (h.userRange hg).1

end Allotment

end TensorArena
