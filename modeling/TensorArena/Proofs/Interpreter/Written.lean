import TensorArena.Proofs.Interpreter.Confined
import TensorArena.Proofs.Memory.Pieces

/-!
# Kernels that set one output

After a run all slices that a kernel may write are put back, those that it left alone too. Such a piece
holds what the memory has in its place, so putting it back changes nothing, wherever it stands among the
others. Hence of a kernel that sets one output, the owner of the interpreter finds that output as it was
set, and no other byte of the arena is different.
-/

namespace TensorArena

variable {σ π : Type}

/-! ## Putting back -/

namespace Memory

variable {m : Memory}

/-- Pieces that hold what is there change nothing. -/
theorem get_join_of_holds {m' : Memory} {pieces : List (ByteRange × Bytes)} {x : Nat}
    (hstop : ∀ p ∈ pieces, p.1.stop ≤ m'.size)
    (holds : ∀ p ∈ pieces, p.1.Covers x → m.Holds p.1 p.2) (hget : m'.get x = m.get x) :
    (m'.join pieces).get x = m.get x := by
  induction pieces generalizing m' with
  | nil => exact hget
  | cons p rest ih =>
    obtain ⟨r, bytes⟩ := p
    obtain ⟨hfirst, hstop⟩ := List.forall_mem_cons.mp hstop
    obtain ⟨hpiece, holds⟩ := List.forall_mem_cons.mp holds
    rw [join_cons]
    refine ih (fun p hp => by rw [size_write]; exact hstop p hp) holds ?_
    by_cases hx : r.Covers x
    · have hlen : bytes.length = r.length := (hpiece hx).length_eq
      have htake : bytes.take r.length = bytes := by rw [← hlen, List.take_length]
      simp only [ByteRange.Covers, ByteRange.stop] at hx hfirst
      have hbyte := (hpiece hx).getElem?_eq (x - r.offset) (by omega : x - r.offset < r.length)
      rw [Nat.add_sub_cancel' hx.1] at hbyte
      rw [htake, get_write m' (by rw [hlen]; exact hfirst), if_pos hx.1, hbyte, Option.getD_some]
    · rw [get_write_of_not_covers m' fun hc => hx (covers_of_covers_take hc), hget]

end Memory

namespace Operands

variable {o : Operands} {j : Nat} {t : Tensor} {old : Slice}

/-- Setting an output changes one of the slices that can be written. -/
theorem writable_setOutput (h : o.outputs[j]? = some (some (t, old))) (new : Slice) :
    ∃ front back, o.writable = front ++ old :: back ∧
      (o.setOutput j new).writable = front ++ new :: back := by
  obtain ⟨hj, hget⟩ := List.getElem?_eq_some_iff.mp h
  have hsplit : o.outputs = o.outputs.take j ++ some (t, old) :: o.outputs.drop (j + 1) := by
    rw [← hget, List.getElem_cons_drop, List.take_append_drop]
  have hset : (o.setOutput j new).outputs =
      o.outputs.take j ++ some (t, new) :: o.outputs.drop (j + 1) := by
    rw [setOutput, List.modify_eq_take_cons_drop hj, hget]
    rfl
  refine ⟨o.inputs.filterMap Input.writable ++ (o.outputs.take j).filterMap fun out => out.map (·.2),
    (o.outputs.drop (j + 1)).filterMap (fun out => out.map (·.2)) ++ o.scratch ++ [o.userData], ?_, ?_⟩
  · rw [writable]
    conv => lhs; rw [hsplit]
    simp only [List.filterMap_append, List.filterMap_cons, Option.map_some, List.append_assoc,
      List.cons_append]
  · rw [writable, hset]
    simp only [List.filterMap_append, List.filterMap_cons, Option.map_some, List.append_assoc,
      List.cons_append, setOutput]

end Operands

/-- A slice with the range that it was taken from. -/
def Slice.lent (s : Slice) : ByteRange × Bytes :=
  (s.range, s.bytes)

/-- The slices that can be written are what the memory has in ranges that are apart. -/
structure Memory.Lends (m : Memory) (o : Operands) : Prop where
  apart : (o.writable.map Slice.range).Pairwise ByteRange.Apart
  stop_le : ∀ slice ∈ o.writable, slice.range.stop ≤ m.size
  holds : ∀ slice ∈ o.writable, m.Holds slice.range slice.bytes

/-- When one output was set, it holds what it was set to, and all else is as before. -/
theorem Memory.writeBack_setOutput {m : Memory} {o : Operands} (h : m.Lends o) {j : Nat} {t : Tensor}
    {old new : Slice} (hold : o.outputs[j]? = some (some (t, old)))
    (hlen : new.bytes.length = old.bytes.length) :
    (m.writeBack o (o.setOutput j new)).piece old.range = new.bytes ∧
      ∀ x, ¬ old.range.Covers x → (m.writeBack o (o.setOutput j new)).get x = m.get x := by
  obtain ⟨front, back, hbefore, hafter⟩ := Operands.writable_setOutput hold new
  obtain ⟨apart, hstop, holds⟩ := h
  rw [hbefore] at apart hstop holds
  obtain ⟨hstopFront, hstop⟩ := List.forall_mem_append.mp hstop
  obtain ⟨hstopOld, hstopBack⟩ := List.forall_mem_cons.mp hstop
  obtain ⟨holdsFront, holds⟩ := List.forall_mem_append.mp holds
  obtain ⟨-, holdsBack⟩ := List.forall_mem_cons.mp holds
  -- Each range goes with the bytes that it is given back.
  have hpieces : (o.writable.map Slice.range).zip ((o.setOutput j new).writable.map (·.bytes)) =
      front.map Slice.lent ++ (old.range, new.bytes) :: back.map Slice.lent := by
    rw [hbefore, hafter, List.map_append, List.map_append, List.map_cons, List.map_cons,
      List.zip_append (by rw [List.length_map, List.length_map]), List.zip_cons_cons, List.zip_map',
      List.zip_map']
    rfl
  have hranges : (front.map Slice.lent ++ (old.range, new.bytes) :: back.map Slice.lent).map Prod.fst =
      (front ++ old :: back).map Slice.range := by
    rw [List.map_append, List.map_cons, List.map_map, List.map_map, List.map_append, List.map_cons]
    rfl
  rw [writeBack, putBack, hpieces]
  refine ⟨?_, fun x hx => get_join_of_holds ?_ ?_ rfl⟩
  · refine piece_join m ?_ (List.mem_append_right _ List.mem_cons_self) hlen hstopOld
    rw [← List.pairwise_map (f := Prod.fst), hranges]
    exact apart
  · exact List.forall_mem_append.mpr ⟨List.forall_mem_map.mpr hstopFront,
      List.forall_mem_cons.mpr ⟨hstopOld, List.forall_mem_map.mpr hstopBack⟩⟩
  · exact List.forall_mem_append.mpr ⟨List.forall_mem_map.mpr fun s hs _ => holdsFront s hs,
      List.forall_mem_cons.mpr ⟨fun hc => absurd hc hx,
        List.forall_mem_map.mpr fun s hs _ => holdsBack s hs⟩⟩

/-! ## Running one operator -/

/-- A kernel that succeeds on what is bound to it ends the run of its operator well. -/
theorem Pass.runOperator_of_succeeds {g : Graph} (profiler : Option (Profiler π))
    {context : Option Int} {tables : Tables} {op : Operator} {kernel : Kernel σ} {k : Nat}
    {s : Site σ π} {o : Operands} (hbound : s.bound g op tables k context = .ok o)
    (hsucceeds : (kernel.invoke.run (o, s.outside)).1 = .ok ()) :
    ∃ s', (runOperator g profiler context tables k op kernel).exec s = (.ok (), s') ∧
      Site.Ran kernel o (.ok ()) s s' := by
  have hruns := runOperator_runs s g profiler context tables k op kernel
  rcases hone : (runOperator g profiler context tables k op kernel).exec s with ⟨e | _, s'⟩
  · rcases hruns.of_error hone with ⟨hunbound, -⟩ | ⟨o', cause, hbound', -, hran⟩
    · cases hbound.symm.trans hunbound
    · cases hbound.symm.trans hbound'
      cases hsucceeds.symm.trans hran.outcome_eq
  · obtain ⟨o', hbound', hran⟩ := hruns.of_ok hone
    cases hbound.symm.trans hbound'
    exact ⟨s', rfl, hran⟩

/-- What is bound to an operator is lent to its kernel. -/
theorem Allotment.operands_lent {a : Allotment} {g : Graph} {tables : Tables} {m : Memory} {k : Nat}
    {op : Operator} {grant : Grant} (h : a.Fits g tables) (hsize : a.stages.start ≤ m.size)
    (hop : g.operators[k]? = some op) (hg : a.grants[k]? = some grant)
    (hclaims : (a.claims g op (a.rowOf k grant)).Pairwise ByteRange.Apart) (context : Option Int) :
    m.Lends (m.operands op (a.rowOf k grant) context (a.sources g op (a.rowOf k grant))) := by
  have hslices : ∀ slice ∈ (m.operands op (a.rowOf k grant) context
      (a.sources g op (a.rowOf k grant))).writable,
      slice.range.stop ≤ m.size ∧ m.Holds slice.range slice.bytes := by
    intro slice hslice
    obtain ⟨r, hr, rfl⟩ := Memory.exists_range_of_writable hslice
    have hstop : r.stop ≤ m.size :=
      Nat.le_trans (claims_stop_le h hop hg ((writable_sublist h hg).subset hr)) hsize
    rw [Memory.range_slice hstop]
    exact ⟨hstop, Memory.holds_piece hstop⟩
  refine ⟨?_, fun slice hslice => (hslices slice hslice).1,
    fun slice hslice => (hslices slice hslice).2⟩
  rw [map_range_writable h hsize hop hg]
  exact hclaims.sublist (writable_sublist h hg)

namespace Interpreter

variable {i : Interpreter σ π} {tables : Tables} {a : Allotment} {s s' : Site σ π}

/-- After the first operators comes the next one. -/
theorem runFirst_succ {k : Nat} {op : Operator} {kernel : Kernel σ}
    (hkernel : (i.graph.operators.zip i.kernels)[k]? = some (op, kernel))
    (hrun : (i.runFirst tables k).exec s = (.ok (), s')) :
    (i.runFirst tables (k + 1)).exec s =
      (Pass.runOperator i.graph.toGraph i.activeProfiler i.context tables k op kernel).exec s' := by
  have hlen : ((i.graph.operators.zip i.kernels).take k).length = k :=
    List.length_take_of_le (Nat.le_of_lt (List.getElem?_eq_some_iff.mp hkernel).1)
  have hsplit := Pass.runAll_append [(op, kernel)] hrun
  rw [hlen, Nat.zero_add, Pass.runAll, Pass.exec_bind] at hsplit
  rw [runFirst, List.take_add_one, hkernel]
  refine hsplit.trans ?_
  split
  · rename_i hone
    rw [hone]
    rfl
  · rename_i hone
    exact hone.symm

namespace Lodged

/-- When a kernel set one output and left all other slices alone, a reader finds what it was set to,
and no other byte of the arena has changed. -/
theorem ran_output (h : i.Lodged tables a s.memory) (hhold : s.hold ≠ .exclusive) {k : Nat}
    {op : Operator} (hop : i.graph.operators[k]? = some op) {o : Operands}
    (hbound : s.bound i.graph.toGraph op tables k i.context = .ok o) {kernel : Kernel σ}
    (hran : Site.Ran kernel o (.ok ()) s s') {j id : Nat} (hj : op.outputs[j]? = some (some id))
    {t : Tensor} {old new : Slice} (hold : o.outputs[j]? = some (some (t, old)))
    (hset : (kernel.invoke.run (o, s.outside)).2.1 = o.setOutput j new)
    (hlen : new.bytes.length = old.bytes.length) :
    i.tensor s' id = .ok ⟨t, ⟨old.address, new.bytes⟩⟩ ∧
      ∀ x, ¬ old.range.Covers x → s'.memory.get x = s.memory.get x := by
  have hwrote := Allotment.wrote_of_ran i.graph.rules h.fits h.settled hop hbound hran
  obtain ⟨grant, hg, ho, hclaims⟩ :=
    Allotment.operands_of_bound i.graph.rules h.fits h.settled hop hbound
  have hlends : s.memory.Lends o :=
    ho ▸ Allotment.operands_lent h.fits h.start_le hop hg hclaims i.context
  obtain ⟨hpiece, hget⟩ := Memory.writeBack_setOutput hlends hold hlen
  have hmemory : s'.memory = s.memory.writeBack o (o.setOutput j new) := by
    rw [hran.memory_eq, hset]
  refine ⟨?_, fun x hx => by rw [hmemory]; exact hget x hx⟩
  have hmem := List.mem_of_getElem? hj
  obtain ⟨⟨t', ht, hkind⟩, -⟩ := i.graph.rules.write k op hop id (Operator.mem_outputIds.mpr hmem)
  have hd := (Tensor.data_of_kind_activation hkind).1
  have hs := Graph.stored_of_operand hop
    (List.mem_append_right _ (Operator.mem_outputIds.mpr hmem)) ht hd
  -- The output is the slice of its own range.
  have hself : o.outputs[j]? = some (some (t', s.memory.slice (a.rangeOf id))) := by
    rw [ho]
    show ((op.outputs.map (a.source i.graph.toGraph)).map s.memory.output)[j]? = _
    rw [List.getElem?_map, List.getElem?_map, hj, Option.map_some, Option.map_some,
      Allotment.source_eq_of_data h.fits ht hd]
    rfl
  cases hold.symm.trans hself
  have hrange : (s.memory.slice (a.rangeOf id)).range = a.rangeOf id := by
    obtain ⟨span, hspan, -, -, -, -, hstop⟩ := h.fits.stored hs
    rw [Allotment.rangeOf_eq hspan]
    exact Memory.range_slice (Nat.le_trans hstop h.start_le)
  have hlater := h.wrote hwrote rfl h.tables_eq
  rw [hrange] at hpiece
  rw [hlater.tensor_stored (hwrote.hold_eq ▸ hhold) hs, Memory.slice, hmemory, hpiece]
  rfl

end Lodged

end Interpreter

end TensorArena
