import Mathlib.Data.List.Sigma
import TensorArena.Proofs.Arena.Positions

/-!
# Ranges in order

Before slices are cut off, the ranges that hold bytes are put in the order of their offsets, each with
its place. For ranges in this order it is enough to compare neighbours: all ranges are pairwise apart
exactly when each one starts at the end of the one before it or later.
-/

namespace TensorArena

namespace ByteRange

variable {ranges : List ByteRange}

/-! ## Sorting -/

theorem insert_perm (c : ByteRange × Nat) (cuts : List (ByteRange × Nat)) :
    (insert c cuts).Perm (c :: cuts) := by
  induction cuts with
  | nil => exact .refl _
  | cons d rest ih =>
    unfold insert
    split
    · exact .refl _
    · exact (ih.cons d).trans (.swap c d rest)

theorem insert_sorted {c : ByteRange × Nat} {cuts : List (ByteRange × Nat)}
    (sorted : cuts.Pairwise fun c d => c.1.offset ≤ d.1.offset) :
    (insert c cuts).Pairwise fun c d => c.1.offset ≤ d.1.offset := by
  induction cuts with
  | nil => exact List.pairwise_singleton _ _
  | cons d rest ih =>
    obtain ⟨hfirst, hrest⟩ := List.pairwise_cons.mp sorted
    unfold insert
    split
    · rename_i hlt
      refine List.pairwise_cons.mpr ⟨fun e he => ?_, sorted⟩
      rcases List.mem_cons.mp he with rfl | he
      · omega
      · have := hfirst e he
        omega
    · rename_i hle
      refine List.pairwise_cons.mpr ⟨fun e he => ?_, ih hrest⟩
      rcases List.mem_cons.mp ((insert_perm c rest).mem_iff.mp he) with rfl | he
      · omega
      · exact hfirst e he

theorem foldl_insert (cuts : List (ByteRange × Nat)) {sorted : List (ByteRange × Nat)}
    (h : sorted.Pairwise fun c d => c.1.offset ≤ d.1.offset) :
    (cuts.foldl (fun sorted c => insert c sorted) sorted).Perm (cuts ++ sorted) ∧
      (cuts.foldl (fun sorted c => insert c sorted) sorted).Pairwise
        fun c d => c.1.offset ≤ d.1.offset := by
  induction cuts generalizing sorted with
  | nil => exact ⟨.refl _, h⟩
  | cons c rest ih =>
    obtain ⟨hperm, hsorted⟩ := ih (insert_sorted (c := c) h)
    refine ⟨hperm.trans ?_, hsorted⟩
    exact ((insert_perm c sorted).append_left rest).trans List.perm_middle

theorem ordered_sorted (ranges : List ByteRange) :
    (ordered ranges).Pairwise fun c d => c.1.offset ≤ d.1.offset :=
  (foldl_insert _ .nil).2

theorem ordered_perm_filter (ranges : List ByteRange) :
    (ordered ranges).Perm (ranges.zipIdx.filter fun (r, _) => r.length ≠ 0) := by
  have h := (foldl_insert (ranges.zipIdx.filter fun (r, _) => r.length ≠ 0) .nil).1
  rwa [List.append_nil] at h

theorem mem_ordered {r : ByteRange} {i : Nat} :
    (r, i) ∈ ordered ranges ↔ ranges[i]? = some r ∧ r.length ≠ 0 := by
  rw [(ordered_perm_filter ranges).mem_iff, List.mem_filter, List.mk_mem_zipIdx_iff_getElem?,
    decide_eq_true_eq]

theorem ordered_perm (ranges : List ByteRange) :
    ((ordered ranges).map Prod.fst).Perm (ranges.filter fun r => r.length ≠ 0) := by
  refine ((ordered_perm_filter ranges).map Prod.fst).trans (List.Perm.of_eq ?_)
  have h := List.filter_map (f := Prod.fst) (p := fun r : ByteRange => r.length ≠ 0)
    (l := ranges.zipIdx)
  rw [List.zipIdx_map_fst] at h
  exact h.symm

theorem ordered_distinct (ranges : List ByteRange) : ((ordered ranges).map Prod.snd).Nodup := by
  refine ((ordered_perm_filter ranges).map Prod.snd).nodup_iff.mpr ?_
  exact (List.nodup_zipIdx_map_snd ranges).sublist (List.filter_sublist.map Prod.snd)

/-! ## Neighbours -/

/-- Sorted ranges that hold bytes are apart exactly when they lie one after the other. -/
theorem pairwise_stop_le_iff (sorted : ranges.Pairwise fun r s => r.offset ≤ s.offset)
    (full : ∀ r ∈ ranges, r.length ≠ 0) :
    (ranges.Pairwise fun r s => r.stop ≤ s.offset) ↔ ranges.Pairwise Apart := by
  constructor
  · intro h
    exact h.imp apart_of_stop_le
  · intro h
    refine (sorted.and h).imp_of_mem fun {r s} hr hs ⟨hle, hapart⟩ => ?_
    have := full s hs
    rcases hapart.le_or_le (full r hr) this with hrs | hsr
    · exact hrs
    · simp only [stop] at hsr
      omega

/-- Empty ranges are apart from everything. -/
theorem pairwise_apart_filter :
    (ranges.filter fun r => r.length ≠ 0).Pairwise Apart ↔ ranges.Pairwise Apart := by
  rw [List.pairwise_filter]
  refine List.Pairwise.iff fun r s => ⟨fun h => ?_, fun h _ _ => h⟩
  by_cases hr : r.length = 0
  · exact fun x hx => absurd hx (not_covers_of_length_eq_zero hr x)
  · by_cases hs : s.length = 0
    · exact fun x _ hx => not_covers_of_length_eq_zero hs x hx
    · exact h (by simpa using hr) (by simpa using hs)

/-- In order, ranges lie one after the other exactly when all of them are apart. -/
theorem ordered_pairwise_iff (ranges : List ByteRange) :
    ((ordered ranges).Pairwise fun c d => c.1.stop ≤ d.1.offset) ↔ ranges.Pairwise Apart := by
  have hperm := ordered_perm ranges
  have hsorted : ((ordered ranges).map Prod.fst).Pairwise fun r s => r.offset ≤ s.offset :=
    List.pairwise_map.mpr (ordered_sorted ranges)
  have hfull : ∀ r ∈ (ordered ranges).map Prod.fst, r.length ≠ 0 := by
    intro r hr
    simpa using (List.mem_filter.mp (hperm.mem_iff.mp hr)).2
  rw [← List.pairwise_map (f := Prod.fst) (R := fun r s : ByteRange => r.stop ≤ s.offset),
    pairwise_stop_le_iff hsorted hfull, hperm.pairwise_iff fun h => h.symm, pairwise_apart_filter]

end ByteRange

end TensorArena
