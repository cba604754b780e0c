import TensorArena.Proofs.Graph.Accepted
import TensorArena.Proofs.Interpreter.Confined
import TensorArena.Proofs.Reference.Operands
import TensorArena.Proofs.Tensor.Words

/-!
# Typed access

A typed reading asks for as many bytes as shape and type call for, and for a first byte at an address
that the element size divides. Offsets in the arena count from its base and those of constant data from
the words that they are packed in, so an offset alone does not settle the address: `Tensor.Readable`
speaks about every address that the offset may stand for.

Everything in the arena has an offset that `arenaAlignment` divides, and so has the base of an arena
that has any bytes. Hence the readings of an interpreter that is lodged succeed, be it through a handle
or through the views of a kernel.
-/

namespace TensorArena

variable {σ π : Type}

/-- The slice with offsets counted from `home`. -/
def Slice.rebase (slice : Slice) (home : Nat) : Slice :=
  { slice with address := home + slice.address }

namespace Tensor

/-- Where the offsets of a tensor's bytes count from: an arena starts at `base`, and constant data lie
in 64-bit words of their own. -/
def HasHome (t : Tensor) (base home : Nat) : Prop :=
  if t.data.isSome then 8 ∣ home else home = base

/-- The slice holds exactly the bytes of the tensor, and can be read as one element for each element of
the shape, by its offset and by its address. -/
structure Readable (t : Tensor) (base : Nat) (slice : Slice) : Prop where
  length_eq : slice.bytes.length = t.shape.dims.prod * t.dtype.size
  view_eq : View.make t.shape t.dtype slice = .ok ⟨t.shape, t.dtype, slice⟩
  elements : ∃ ws : List Nat, ws.length = t.shape.dims.prod ∧
    slice.elements t.dtype t.dtype = .ok ws ∧
    ∀ home, t.HasHome base home → (slice.rebase home).elements t.dtype t.dtype = .ok ws

theorem Valid.size_pos {t : Tensor} (h : t.Valid) (hpos : 0 < t.shape.dims.prod) : 0 < t.size := by
  rw [h.size_eq_prod]
  exact Nat.mul_pos hpos t.dtype.size_pos

/-- Constant data have the bytes that their tensor calls for. -/
theorem Valid.length_data {t : Tensor} (h : t.Valid) {data : Packed} (hd : t.data = some data) :
    data.toBytes.length = t.size := by
  rw [data.length_toBytes, Tensor.size, Shape.bytes, (h.constant data hd).1]
  rfl

theorem HasHome.size_dvd {t : Tensor} {base home : Nat} (h : t.HasHome base home)
    (hbase : t.data = none → arenaAlignment ∣ base) : t.dtype.size ∣ home := by
  unfold HasHome at h
  split at h
  · exact Nat.dvd_trans t.dtype.size_dvd_eight h
  · rename_i hd
    subst h
    exact Nat.dvd_trans t.dtype.size_dvd (hbase (Option.not_isSome_iff_eq_none.mp hd))

end Tensor

theorem Slice.Fits.readable {slice : Slice} {t : Tensor} (h : slice.Fits t) (hv : t.Valid) {base : Nat}
    (hbase : t.data = none → arenaAlignment ∣ base) : t.Readable base slice := by
  obtain ⟨haddress, hbytes⟩ := h
  have hsize : slice.bytes.length = t.size := by
    cases hd : t.data with
    | some data =>
      rw [hd] at hbytes
      exact (congrArg List.length hbytes).trans (hv.length_data hd)
    | none =>
      rw [hd] at hbytes
      exact hbytes
  have hlen := hsize.trans hv.size_eq_prod
  have hdvd : t.dtype.size ∣ slice.bytes.length := ⟨_, hlen.trans (Nat.mul_comm ..)⟩
  have hoffset : t.dtype.size ∣ slice.address := Nat.dvd_trans t.dtype.size_dvd haddress
  refine ⟨hlen, if_neg (not_not_intro hsize.symm), Bytes.words t.dtype.size slice.bytes, ?_,
    Slice.elements_eq hoffset hdvd, fun home hhome => ?_⟩
  · rw [Bytes.length_words, hlen, Nat.mul_div_cancel _ t.dtype.size_pos]
  · exact Slice.elements_eq (s := slice.rebase home)
      (Nat.dvd_add (hhome.size_dvd hbase) hoffset) hdvd

/-- Constant data can be read. -/
theorem Tensor.Valid.data_readable {t : Tensor} (h : t.Valid) {data : Packed} (hd : t.data = some data)
    {base : Nat} : t.Readable base ⟨0, data.toBytes⟩ := by
  refine Slice.Fits.readable ⟨Nat.dvd_zero _, ?_⟩ h ?_
  · rw [hd]
  · rw [hd]
    nofun

theorem Tensor.Readable.viewOf_eq {t : Tensor} {base : Nat} {slice : Slice}
    (h : t.Readable base slice) : t.viewOf slice = .ok ⟨t.shape, t.dtype, slice⟩ := by
  rw [viewOf, h.view_eq]
  rfl

/-- The views of a kernel can be read, and what else it is handed starts at an aligned address. -/
structure Operands.Typed (o : Operands) (g : Graph) (op : Operator) (base : Nat) : Prop where
  /-- Every input can be viewed and read, and a variable also where a kernel asks for one. -/
  inputs : ∀ (j id : Nat) t, op.inputs[j]? = some (some id) → g.tensors[id]? = some t →
    0 < t.shape.dims.prod → ∃ slice, t.Readable base slice ∧
      o.input? j = .ok (some ⟨t.shape, t.dtype, slice⟩) ∧
      (t.kind = .var → o.variableInput j = .ok ⟨t.shape, t.dtype, slice⟩)
  outputs : ∀ (j id : Nat) t, op.outputs[j]? = some (some id) → g.tensors[id]? = some t →
    0 < t.shape.dims.prod → ∃ slice, t.Readable base slice ∧
      o.output? j = .ok (some ⟨t.shape, t.dtype, slice⟩)
  blocks : ∀ slice ∈ o.scratch ++ [o.userData], slice.bytes ≠ [] →
    arenaAlignment ∣ base + slice.address

namespace Allotment

variable {a : Allotment} {g : Graph} {tables : Tables} {m : Memory} {k : Nat} {op : Operator}
  {grant : Grant} {base : Nat}

/-! ## What lies in the arena -/

/-- A tensor in the arena that has an element can be read. -/
theorem Fits.stored_readable (h : a.Fits g tables) (hv : g.Valid) (hsize : a.stages.start ≤ m.size)
    (hbase : m.size ≠ 0 → arenaAlignment ∣ base) {id : Nat} {t : Tensor} (hs : g.Stored id t)
    (hpos : 0 < t.shape.dims.prod) : t.Readable base (m.slice (a.rangeOf id)) := by
  have hvalid := hv.tensor t (List.mem_of_getElem? hs.1)
  refine (h.slice_fits hsize hs).readable hvalid fun _ => hbase ?_
  -- The arena has the bytes of the tensor.
  obtain ⟨span, -, -, hlen, -, -, hstop⟩ := h.stored hs
  have hbytes := hvalid.size_pos hpos
  simp only [ByteRange.stop] at hstop
  omega

/-- Scratch blocks and persistent data have aligned offsets. -/
theorem Fits.workspace_aligned (h : a.Fits g tables) (hg : a.grants[k]? = some grant) {r : ByteRange}
    (hr : r ∈ (a.pieces (a.rowOf k grant)).map Span.range ++ [(a.rowOf k grant).userRange]) :
    arenaAlignment ∣ r.offset ∧ r.stop ≤ a.stages.start := by
  rcases List.mem_append.mp hr with hr | hr
  · obtain ⟨span, hspan, rfl⟩ := List.mem_map.mp hr
    obtain ⟨hdvd, hstop, -⟩ := h.scratch_range (mem_scratch_of_mem_pieces hspan)
    obtain ⟨h₁, h₂, h₃, h₄, h₅, h₆⟩ := h.falling
    exact ⟨hdvd, by omega⟩
  · obtain rfl := List.mem_singleton.mp hr
    obtain ⟨hdvd, -, hstop⟩ := h.userRange hg
    exact ⟨hdvd, hstop⟩

/-! ## What a kernel is handed -/

/-- An input that has an element can be read, whether it is a constant or lies in the arena. -/
theorem input_readable (hv : g.Valid) (h : a.Fits g tables) (hsize : a.stages.start ≤ m.size)
    (hbase : m.size ≠ 0 → arenaAlignment ∣ base) (hop : g.operators[k]? = some op) {id : Nat}
    (hid : some id ∈ op.inputs) {t : Tensor} (ht : g.tensors[id]? = some t)
    (hpos : 0 < t.shape.dims.prod) :
    ∃ slice, t.Readable base slice ∧ m.input (a.source g (some id)) =
      if t.kind = .var then .var t slice else .shared t slice := by
  cases hd : t.data with
  | some data =>
    refine ⟨_, (hv.tensor t (List.mem_of_getElem? ht)).data_readable hd, ?_⟩
    rw [source_eq_of_constant h ht hd, if_neg (Tensor.kind_ne_var hd)]
    rfl
  | none =>
    have hs := Graph.stored_of_operand hop
      (List.mem_append_left _ (Operator.mem_inputIds.mpr hid)) ht hd
    refine ⟨_, h.stored_readable hv hsize hbase hs hpos, ?_⟩
    rw [source_eq_of_data h ht hd, Memory.input_placed]
    simp only [Tensor.kind_eq_var_iff hd]

theorem output_readable (hc : g.Checked) (hv : g.Valid) (h : a.Fits g tables)
    (hsize : a.stages.start ≤ m.size) (hbase : m.size ≠ 0 → arenaAlignment ∣ base)
    (hop : g.operators[k]? = some op) {id : Nat} (hid : some id ∈ op.outputs) {t : Tensor}
    (ht : g.tensors[id]? = some t) (hpos : 0 < t.shape.dims.prod) :
    ∃ slice, t.Readable base slice ∧ m.output (a.source g (some id)) = some (t, slice) := by
  have hout := Operator.mem_outputIds.mpr hid
  obtain ⟨⟨t', ht', hkind⟩, -⟩ := hc.write k op hop id hout
  cases ht.symm.trans ht'
  have hd := (Tensor.data_of_kind_activation hkind).1
  have hs := Graph.stored_of_operand hop (List.mem_append_right _ hout) ht hd
  refine ⟨_, h.stored_readable hv hsize hbase hs hpos, ?_⟩
  rw [source_eq_of_data h ht hd]
  rfl

/-- What binding hands to a kernel is typed. -/
theorem operands_typed (hc : g.Checked) (hv : g.Valid) (h : a.Fits g tables)
    (hsize : a.stages.start ≤ m.size) (hbase : m.size ≠ 0 → arenaAlignment ∣ base)
    (hop : g.operators[k]? = some op) (hg : a.grants[k]? = some grant) (context : Option Int) :
    (m.operands op (a.rowOf k grant) context (a.sources g op (a.rowOf k grant))).Typed g op base where
  inputs := by
    intro j id t hj ht hpos
    obtain ⟨slice, hread, hinput⟩ :=
      input_readable hv h hsize hbase hop (List.mem_of_getElem? hj) ht hpos
    have hget : ((op.inputs.map (a.source g)).map m.input)[j]? =
        some (if t.kind = .var then .var t slice else .shared t slice) := by
      rw [List.getElem?_map, List.getElem?_map, hj, ← hinput]
      rfl
    have hview := hread.viewOf_eq
    by_cases hkind : t.kind = .var
    · rw [if_pos hkind] at hget
      refine ⟨slice, hread, ?_, fun _ => ?_⟩
      · simp only [Operands.input?, Memory.operands, sources, hget, hview]
        rfl
      · simp only [Operands.variableInput, Memory.operands, sources, hget, hview]
    · rw [if_neg hkind] at hget
      refine ⟨slice, hread, ?_, fun hvar => absurd hvar hkind⟩
      simp only [Operands.input?, Memory.operands, sources, hget, hview]
      rfl
  outputs := by
    intro j id t hj ht hpos
    obtain ⟨slice, hread, houtput⟩ :=
      output_readable hc hv h hsize hbase hop (List.mem_of_getElem? hj) ht hpos
    have hget : ((op.outputs.map (a.source g)).map m.output)[j]? = some (some (t, slice)) := by
      rw [List.getElem?_map, List.getElem?_map, hj, ← houtput]
      rfl
    refine ⟨slice, hread, ?_⟩
    simp only [Operands.output?, Memory.operands, sources, hget, hread.viewOf_eq]
    rfl
  blocks := by
    intro slice hslice hbytes
    have hrange : ∃ r ∈ (a.pieces (a.rowOf k grant)).map Span.range ++ [(a.rowOf k grant).userRange],
        slice = m.slice r :=
      Memory.exists_range_of_workspace
        ((List.mem_append.mp hslice).imp id List.mem_singleton.mp)
    obtain ⟨r, hr, rfl⟩ := hrange
    -- Of an arena without bytes every slice is empty, wherever it starts.
    refine Nat.dvd_add (hbase fun hzero => hbytes ?_) (h.workspace_aligned hg hr).1
    refine List.eq_nil_of_length_eq_zero ?_
    rw [Memory.slice, Memory.piece, Memory.length_read, hzero]
    omega

end Allotment

/-! ## Handles -/

namespace Interpreter.Lodged

variable {i : Interpreter σ π} {tables : Tables} {a : Allotment} {s : Site σ π} {base : Nat}

/-- Of a tensor that is no constant and has no bytes in the arena there is nothing to read. -/
theorem tensor_missing (h : i.Lodged tables a s.memory) (hhold : s.hold ≠ .exclusive) {id : Nat}
    {t : Tensor} (ht : i.graph.tensors[id]? = some t) (hd : t.data = none)
    (hnot : ¬ i.graph.toGraph.Stored id t) : i.tensor s id = .error (.noBuffer id) := by
  obtain ⟨span, hspan⟩ := h.fits.exists_span ht
  have hplaced : ¬ span.IsPlaced := fun hplaced =>
    hnot (h.fits.stored_of_isPlaced ht hd hspan hplaced)
  unfold Interpreter.tensor
  rw [h.locate_eq h.tablesFor_eq hhold ht hspan]
  dsimp only [bind, Except.bind]
  rw [hd]
  dsimp only
  rw [if_pos hplaced]
  rfl

theorem tensor_found (h : i.Lodged tables a s.memory) (hhold : s.hold ≠ .exclusive) {id : Nat}
    {t : Tensor} (ht : i.graph.tensors[id]? = some t)
    (hbytes : t.data.isSome ∨ i.graph.toGraph.Stored id t) :
    ∃ slice, i.tensor s id = .ok ⟨t, slice⟩ := by
  rcases hbytes with hd | hs
  · obtain ⟨data, hd⟩ := Option.isSome_iff_exists.mp hd
    exact ⟨_, h.tensor_constant hhold ht hd⟩
  · exact ⟨_, h.tensor_stored hhold hs⟩

/-- A handle for reading or for writing a tensor that has an element can be read. -/
theorem handle_readable (h : i.Lodged tables a s.memory)
    (hbase : s.memory.size ≠ 0 → arenaAlignment ∣ base) {id : Nat} {handle : Handle}
    (hread : i.tensor s id = .ok handle ∨ i.writableTensor s id = .ok handle)
    (hpos : 0 < handle.tensor.shape.dims.prod) : handle.tensor.Readable base handle.slice := by
  have hv := Graph.valid_of_check i.graph.checked
  rcases hread with hread | hwrite
  · have hhold : s.hold ≠ .exclusive := by
      obtain ⟨found, hlocate, -⟩ := bind_ok hread
      exact hold_of_locate hlocate
    obtain ⟨ht, hs | ⟨data, hd⟩⟩ := h.tensor_ok hread
    · obtain ⟨t, slice⟩ := handle
      cases (h.tensor_stored hhold hs).symm.trans hread
      exact h.fits.stored_readable hv h.start_le hbase hs hpos
    · obtain ⟨t, slice⟩ := handle
      cases (h.tensor_constant hhold ht hd).symm.trans hread
      exact (hv.tensor _ (List.mem_of_getElem? ht)).data_readable hd
  · obtain ⟨t, span, hs, hspan, rfl⟩ := h.writableTensor hwrite
    have hreadable := h.fits.stored_readable hv h.start_le hbase hs hpos
    rw [Allotment.rangeOf_eq hspan] at hreadable
    exact hreadable

end Interpreter.Lodged

end TensorArena
