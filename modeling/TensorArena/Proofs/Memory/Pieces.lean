import Mathlib.Data.List.Forall2
import TensorArena.Proofs.Memory.Join
import TensorArena.Proofs.Memory.Ordered

/-!
# Splitting is exact

Slices are cut off in one walk along the ranges by offset. What the walk has left at any time
`Remains` of the memory from the cursor on, so each slice is read where its range lies, and it goes
to the place that its range had before the ranges were put in order. The walk gets to the end exactly
when no range starts before the cursor. `split_eq_ok_iff` forgets the walk: the slices are what the
memory has in the ranges, one by one.

Writing through the slices is putting them back with other bytes. `split_exact` says all of it: when
the slices are handed out, what they hold, and what the memory holds after they were written.
-/

namespace TensorArena

/-! ## Filling slots -/

section

variable {α β : Type} (f : α → β) {cuts : List (α × Nat)} {slots : List β} {i : Nat}

theorem getElem?_foldl_set_of_forall_ne (h : ∀ c ∈ cuts, c.2 ≠ i) :
    (cuts.foldl (fun slots c => slots.set c.2 (f c.1)) slots)[i]? = slots[i]? := by
  induction cuts generalizing slots with
  | nil => rfl
  | cons c more ih =>
    obtain ⟨hne, hmore⟩ := List.forall_mem_cons.mp h
    rw [List.foldl_cons, ih hmore, List.getElem?_set_ne hne]

/-- A slot that is filled once keeps what it got. -/
theorem getElem?_foldl_set_of_mem (distinct : (cuts.map Prod.snd).Nodup) {a : α}
    (h : (a, i) ∈ cuts) (hi : i < slots.length) :
    (cuts.foldl (fun slots c => slots.set c.2 (f c.1)) slots)[i]? = some (f a) := by
  induction cuts generalizing slots with
  | nil => cases h
  | cons c more ih =>
    obtain ⟨hfresh, hmore⟩ := List.nodup_cons.mp distinct
    rw [List.foldl_cons]
    rcases List.mem_cons.mp h with rfl | hmem
    · have hlater : ∀ c ∈ more, c.2 ≠ i := fun c hc heq =>
        hfresh (List.mem_map.mpr ⟨c, hc, heq⟩)
      rw [getElem?_foldl_set_of_forall_ne f hlater, List.getElem?_set_self hi]
    · exact ih hmore hmem (by rw [List.length_set]; exact hi)

end

namespace Memory

/-! ## The walk -/

/-- What is left of a memory from an offset on. -/
structure Remains (m : Memory) (cursor : Nat) (rest : Memory) : Prop where
  size_eq : rest.size = m.size - cursor
  get_eq : ∀ x < rest.size, rest.get x = m.get (cursor + x)

variable {m rest : Memory} {cursor : Nat}

theorem remains_self (m : Memory) : m.Remains 0 m :=
  ⟨rfl, fun x _ => by rw [Nat.zero_add]⟩

theorem Remains.read_eq (h : m.Remains cursor rest) {r : ByteRange} (hcursor : cursor ≤ r.offset)
    (hstop : r.stop ≤ m.size) : rest.read (r.offset - cursor) r.length = m.piece r := by
  have hsize := h.size_eq
  simp only [ByteRange.stop] at hstop
  refine List.ext_getElem? fun k => ?_
  rw [piece, getElem?_read m hstop, getElem?_read rest (by omega)]
  split
  · rw [h.get_eq _ (by omega), ← Nat.add_assoc, Nat.add_sub_cancel' hcursor]
  · rfl

theorem Remains.window (h : m.Remains cursor rest) {next : Nat} (hle : cursor ≤ next) :
    m.Remains next (rest.window (next - cursor) rest.size) := by
  have hsize : (rest.window (next - cursor) rest.size).size = rest.size - (next - cursor) :=
    Nat.min_eq_right (Nat.sub_le ..)
  refine ⟨?_, fun x hx => ?_⟩
  · rw [hsize, h.size_eq]
    omega
  · rw [get_window rest hx, h.get_eq _ (by omega), ← Nat.add_assoc, Nat.add_sub_cancel' hle]

/-- The walk gets to the end when the ranges lie one after the other from the cursor on, and then the
slot of each range has what the memory has there. -/
theorem carve_eq_ok_iff {cuts : List (ByteRange × Nat)} (hstop : ∀ c ∈ cuts, c.1.stop ≤ m.size)
    (h : m.Remains cursor rest) {slots slices : List Slice} :
    rest.carve cursor slots cuts = .ok slices ↔
      ((∀ c ∈ cuts, cursor ≤ c.1.offset) ∧ cuts.Pairwise fun c d => c.1.stop ≤ d.1.offset) ∧
        cuts.foldl (fun slots c => slots.set c.2 (m.slice c.1)) slots = slices := by
  induction cuts generalizing cursor rest slots with
  | nil => simp [carve]
  | cons c more ih =>
    obtain ⟨r, i⟩ := c
    obtain ⟨hin, hstop⟩ := List.forall_mem_cons.mp hstop
    rw [carve, List.foldl_cons, List.pairwise_cons, List.forall_mem_cons]
    by_cases hlt : r.offset < cursor
    · rw [if_pos hlt]
      exact iff_of_false nofun fun h => Nat.not_lt_of_le h.1.1.1 hlt
    · have hle : cursor ≤ r.offset := Nat.le_of_not_lt hlt
      have hbehind : m.Remains r.stop (rest.window (r.offset - cursor + r.length) rest.size) := by
        have heq : r.offset - cursor + r.length = r.stop - cursor := by
          simp only [ByteRange.stop]
          omega
        rw [heq]
        exact h.window (Nat.le_trans hle (Nat.le_add_right ..))
      have hcut : (⟨cursor + (r.offset - cursor), rest.read (r.offset - cursor) r.length⟩ : Slice) =
          m.slice r := by
        rw [Nat.add_sub_cancel' hle, h.read_eq hle hin, slice]
      rw [if_neg hlt]
      dsimp only
      rw [hcut, ih hstop hbehind]
      refine and_congr_left fun _ => ⟨?_, ?_⟩
      · rintro ⟨hnext, hmore⟩
        refine ⟨⟨hle, fun d hd => ?_⟩, hnext, hmore⟩
        exact Nat.le_trans hle (Nat.le_trans (Nat.le_add_right ..) (hnext d hd))
      · rintro ⟨-, hnext, hmore⟩
        exact ⟨hnext, hmore⟩

/-- All slots start out empty, so the ranges that the walk leaves out have their slices too. -/
theorem fill_ordered_eq (m : Memory) (ranges : List ByteRange) :
    (ByteRange.ordered ranges).foldl (fun slots c => slots.set c.2 (m.slice c.1))
      (ranges.map fun r => ⟨r.offset, []⟩) = ranges.map m.slice := by
  refine List.ext_getElem? fun i => ?_
  rw [List.getElem?_map]
  by_cases hcut : ∃ r, (r, i) ∈ ByteRange.ordered ranges
  · obtain ⟨r, hmem⟩ := hcut
    obtain ⟨hr, -⟩ := ByteRange.mem_ordered.mp hmem
    rw [hr]
    refine getElem?_foldl_set_of_mem m.slice (ByteRange.ordered_distinct ranges) hmem ?_
    rw [List.length_map]
    exact (List.getElem?_eq_some_iff.mp hr).1
  · rw [getElem?_foldl_set_of_forall_ne m.slice, List.getElem?_map]
    · refine Option.map_congr fun r hr => ?_
      have hzero : r.length = 0 := by
        refine Decidable.byContradiction fun hne => hcut ⟨r, ?_⟩
        exact ByteRange.mem_ordered.mpr ⟨hr, hne⟩
      have hempty : m.piece r = [] := by
        rw [piece, hzero, ← List.length_eq_zero_iff, length_read, Nat.zero_min]
      rw [slice, hempty]
    · rintro ⟨r, j⟩ hc rfl
      exact hcut ⟨r, hc⟩

/-- Slices are handed out when there are not too many ranges, all inside the memory and pairwise
apart; they are what the memory has in the ranges. -/
theorem split_eq_ok_iff {slots : Nat} {ranges : List ByteRange} {slices : List Slice} :
    m.split slots ranges = .ok slices ↔
      ((ranges.length ≤ maxPieces ∧ ranges.length ≤ slots) ∧ (∀ r ∈ ranges, r.stop ≤ m.size) ∧
        ranges.Pairwise ByteRange.Apart) ∧ ranges.map m.slice = slices := by
  unfold split
  split
  · rename_i hmany
    simp only [reduceCtorEq, false_iff]
    omega
  · rename_i hfew
    split
    · rename_i r hr
      have hmem := List.mem_of_find?_eq_some hr
      have hout : m.size < r.stop := by simpa using List.find?_some hr
      refine iff_of_false nofun fun h => ?_
      exact Nat.not_lt_of_le (h.1.2.1 r hmem) hout
    · rename_i hnone
      have hin : ∀ r ∈ ranges, r.stop ≤ m.size := fun r hr => by
        simpa using List.find?_eq_none.mp hnone r hr
      have hcuts : ∀ c ∈ ByteRange.ordered ranges, c.1.stop ≤ m.size := fun c hc =>
        hin c.1 (List.mem_of_getElem? (ByteRange.mem_ordered.mp hc).1)
      rw [carve_eq_ok_iff hcuts m.remains_self, ByteRange.ordered_pairwise_iff, fill_ordered_eq]
      refine and_congr_left fun _ => ⟨fun h => ⟨by omega, hin, h.2⟩, fun h => ⟨?_, h.2.2⟩⟩
      exact fun c _ => Nat.zero_le _

/-- The slices stand where their ranges do. -/
theorem map_range_slice {ranges : List ByteRange} (hstop : ∀ r ∈ ranges, r.stop ≤ m.size) :
    (ranges.map m.slice).map Slice.range = ranges := by
  rw [List.map_map]
  exact (List.map_congr_left fun r hr => range_slice (hstop r hr)).trans (List.map_id _)

/-! ## What pieces hold -/

/-- The memory has these bytes in the range. -/
structure Holds (m : Memory) (r : ByteRange) (bytes : Bytes) : Prop where
  length_eq : bytes.length = r.length
  getElem?_eq : ∀ k < r.length, bytes[k]? = some (m.get (r.offset + k))

theorem holds_piece {r : ByteRange} (h : r.stop ≤ m.size) : m.Holds r (m.piece r) := by
  refine ⟨length_read_of_le m h, fun k hk => ?_⟩
  rw [piece, getElem?_read m h, if_pos hk]

/-- Pieces that are put back are what the memory then has, whatever they hold. -/
theorem join_holds {ranges : List ByteRange} (hstop : ∀ r ∈ ranges, r.stop ≤ m.size)
    (apart : ranges.Pairwise ByteRange.Apart) {written : List Bytes}
    (hlengths : written.map List.length = ranges.map ByteRange.length) :
    List.Forall₂ (m.join (ranges.zip written)).Holds ranges written := by
  have hlength : ranges.length = written.length := by
    simpa using congrArg List.length hlengths.symm
  have hapart : (ranges.zip written).Pairwise fun p q => p.1.Apart q.1 := by
    rwa [← List.pairwise_map (f := Prod.fst), List.map_fst_zip (Nat.le_of_eq hlength)]
  refine List.forall₂_iff_zip.mpr ⟨hlength, fun {r bytes} hmem => ?_⟩
  have hin := hstop r (List.of_mem_zip hmem).1
  obtain ⟨i, hi⟩ := List.mem_iff_getElem?.mp hmem
  rw [List.getElem?_zip_eq_some] at hi
  have heq : bytes.length = r.length := by
    have h := congrArg (·[i]?) hlengths
    simpa only [List.getElem?_map, hi.1, hi.2, Option.map_some, Option.some.injEq] using h
  have hpiece := piece_join m hapart hmem heq hin
  rw [← hpiece]
  exact holds_piece (by rw [size_join]; exact hin)

/-- Splitting hands out the slices when there are at most 64 ranges and no more than slots, all of
them lie in the memory, and the ones that hold bytes are pairwise apart; in all other cases it
fails. The slice in each place has the bytes of the range in that place. Whatever is written
through the slices, the memory then has it in the ranges, and all other bytes are what they were. -/
theorem split_exact (m : Memory) (slots : Nat) (ranges : List ByteRange) :
    ((∃ slices, m.split slots ranges = .ok slices) ↔
      (ranges.length ≤ 64 ∧ ranges.length ≤ slots) ∧ (∀ r ∈ ranges, r.offset + r.length ≤ m.size) ∧
        (ranges.filter fun r => r.length ≠ 0).Pairwise ByteRange.Apart) ∧
    ∀ slices, m.split slots ranges = .ok slices →
      slices.map Slice.range = ranges ∧ List.Forall₂ m.Holds ranges (slices.map Slice.bytes) ∧
      ∀ written : List Bytes, written.map List.length = slices.map (·.bytes.length) →
        (m.putBack slices written).size = m.size ∧
        List.Forall₂ (m.putBack slices written).Holds ranges written ∧
        ∀ x, (∀ r ∈ ranges, ¬ r.Covers x) → (m.putBack slices written).get x = m.get x := by
  constructor
  · rw [ByteRange.pairwise_apart_filter]
    constructor
    · rintro ⟨slices, hsplit⟩
      exact (split_eq_ok_iff.mp hsplit).1
    · intro hfits
      exact ⟨_, split_eq_ok_iff.mpr ⟨hfits, rfl⟩⟩
  · intro slices hsplit
    obtain ⟨⟨-, hstop, apart⟩, rfl⟩ := split_eq_ok_iff.mp hsplit
    have hranges := map_range_slice hstop
    refine ⟨hranges, ?_, fun written hlengths => ?_⟩
    · rw [List.map_map]
      exact List.forall₂_map_right_iff.mpr
        (List.forall₂_same.mpr fun r hr => holds_piece (hstop r hr))
    · have hlengths' : written.map List.length = ranges.map ByteRange.length := by
        rw [hlengths, List.map_map]
        exact List.map_congr_left fun r hr => (holds_piece (hstop r hr)).length_eq
      rw [putBack, hranges]
      refine ⟨size_join .., join_holds hstop apart hlengths', fun x hx => ?_⟩
      exact m.get_join_of_not_covers fun p hp => hx p.1 (List.of_mem_zip hp).1

/-- Ranges out of order, two of them side by side, and one without bytes inside another. -/
example : (ofBytes [1, 2, 3, 4, 5]).split 4 [⟨3, 2⟩, ⟨1, 0⟩, ⟨0, 2⟩, ⟨2, 1⟩] =
    .ok [⟨3, [4, 5]⟩, ⟨1, []⟩, ⟨0, [1, 2]⟩, ⟨2, [3]⟩] := by
  decide

end Memory

end TensorArena
