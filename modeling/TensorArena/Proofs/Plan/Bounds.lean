import TensorArena.Proofs.Memory.Ordered
import TensorArena.Proofs.Plan.Order

/-!
# How large a block has to be

From below: no plan that validates can do with less than the bytes that are alive at one operator. The
check compares sizes, the bound sums rounded sizes; the two meet because offsets and block are multiples
of the alignment, so rounding up a buffer takes it neither into the next one nor out of the block. What
is left is a fact about ranges: if they are pairwise apart and lie below a bound, so does their sum.

From above: first fit never ends behind the sum of all rounded sizes. Every buffer is put at the start
or where an earlier one stops, so each step raises the largest end by one rounded size at most. Linear
placement takes exactly that sum.
-/

namespace TensorArena

theorem total_perm {ns ms : List Nat} (h : ns.Perm ms) : total ns = total ms :=
  h.sum_nat

/-! ## Ranges that are apart -/

namespace ByteRange

/-- Ranges that lie one after the other, from a cursor on, add up to what is left at most. -/
theorem total_length_le_of_ordered {cursor bound : Nat} {ranges : List ByteRange}
    (ordered : ranges.Pairwise fun r s => r.stop ≤ s.offset)
    (hcursor : ∀ r ∈ ranges, cursor ≤ r.offset) (hstop : ∀ r ∈ ranges, r.stop ≤ bound)
    (hle : cursor ≤ bound) : cursor + total (ranges.map length) ≤ bound := by
  induction ranges generalizing cursor with
  | nil => exact hle
  | cons r rest ih =>
    obtain ⟨hfirst, hrest⟩ := List.pairwise_cons.mp ordered
    obtain ⟨hr, hstop⟩ := List.forall_mem_cons.mp hstop
    have hbelow := ih hrest hfirst hstop hr
    have hstart := hcursor r List.mem_cons_self
    simp only [total, List.map_cons, List.foldr_cons, stop] at hbelow ⊢
    omega

theorem total_length_filter (ranges : List ByteRange) :
    total ((ranges.filter fun r => r.length ≠ 0).map length) = total (ranges.map length) := by
  induction ranges with
  | nil => rfl
  | cons r rest ih =>
    by_cases hr : r.length = 0
    · rw [List.filter_cons_of_neg (by simp [hr]), ih]
      simp only [total, List.map_cons, List.foldr_cons, hr, Nat.zero_add]
    · rw [List.filter_cons_of_pos (by simp [hr])]
      exact congrArg (r.length + ·) ih

/-- Ranges that are pairwise apart take no more bytes than there are below the last of their ends. -/
theorem total_length_le {bound : Nat} {ranges : List ByteRange} (apart : ranges.Pairwise Apart)
    (hstop : ∀ r ∈ ranges, r.length ≠ 0 → r.stop ≤ bound) :
    total (ranges.map length) ≤ bound := by
  have hperm := ordered_perm ranges
  have hfull : ∀ r ∈ (ordered ranges).map Prod.fst, r ∈ ranges ∧ r.length ≠ 0 :=
    fun r hr => by simpa using hperm.mem_iff.mp hr
  have hordered : ((ordered ranges).map Prod.fst).Pairwise fun r s => r.stop ≤ s.offset :=
    List.pairwise_map.mpr ((ordered_pairwise_iff ranges).mpr apart)
  have hbound := total_length_le_of_ordered hordered (fun r _ => Nat.zero_le r.offset)
    (fun r hr => hstop r (hfull r hr).1 (hfull r hr).2) (Nat.zero_le bound)
  rwa [Nat.zero_add, total_perm (hperm.map length), total_length_filter] at hbound

end ByteRange

/-! ## Live bytes -/

/-- A buffer that ends below a multiple of the alignment does so rounded up. -/
theorem Placement.reserved_stop_le {align bound : Nat} (halign : IsPowerOfTwo align)
    {q : Placement} (hoffset : align ∣ q.offset) (hbound : align ∣ bound) (hle : q.stop ≤ bound) :
    (q.reserved align).stop ≤ bound := by
  simp only [stop, reserved, ByteRange.stop] at hle ⊢
  have hroom : q.lifetime.size ≤ bound - q.offset := by omega
  have hrounded := alignUp_le_of_dvd halign (Nat.dvd_sub hbound hoffset) hroom
  omega

namespace Plan

variable {p : Plan} {align : Nat}

/-- Buffers that are alive at one operator stay apart when they are rounded up. -/
theorem reserved_apart_of_aliveAt (halign : IsPowerOfTwo align) {a b : Placement}
    (ha : align ∣ a.offset) (hb : align ∣ b.offset) (hclash : ¬ a.Clashes b) {k : Nat}
    (hka : a.lifetime.AliveAt k) (hkb : b.lifetime.AliveAt k) :
    (a.reserved align).Apart (b.reserved align) := by
  intro x hxa hxb
  -- A range that covers an address is not empty, so both buffers hold bytes.
  have full : ∀ q : Placement, (q.reserved align).Covers x → 0 < q.lifetime.size := by
    intro q hq
    refine (alignUp_pos_iff halign).mp (Nat.pos_of_ne_zero fun hzero => ?_)
    exact ByteRange.not_covers_of_length_eq_zero hzero x hq
  have hover := Lifetime.overlaps_of_aliveAt hka hkb
  have hordered : a.stop ≤ b.offset ∨ b.stop ≤ a.offset :=
    Decidable.not_not.mp fun hshare => hclash ⟨full a hxa, full b hxb, hover, hshare⟩
  rcases hordered with hle | hle
  · exact ByteRange.apart_of_stop_le (Placement.reserved_stop_le halign ha hb hle) x hxa hxb
  · exact ByteRange.apart_of_stop_le (Placement.reserved_stop_le halign hb ha hle) x hxb hxa

/-- The bytes alive at one operator fit into the block. -/
theorem liveBytes_le_peak (halign : IsPowerOfTwo align) (hvalid : p.validate = .ok ())
    (hoffsets : ∀ q ∈ p.placements, align ∣ q.offset) (hpeak : align ∣ p.peak) (k : Nat) :
    liveBytes (p.placements.map Placement.lifetime) align k ≤ p.peak := by
  obtain ⟨hends, hclear⟩ := validatePlacements_eq_ok_iff.mp hvalid
  have hsum : liveBytes (p.placements.map Placement.lifetime) align k =
      total (((p.placements.filter fun q => q.lifetime.AliveAt k).map fun q =>
        q.reserved align).map ByteRange.length) := by
    rw [liveBytes, List.filter_map, List.map_map, List.map_map]
    rfl
  rw [hsum]
  refine ByteRange.total_length_le ?_ fun r hr hfull => ?_
  · refine List.pairwise_map.mpr ((hclear.filter _).imp_of_mem fun {a b} ha hb hclash => ?_)
    rw [List.mem_filter, decide_eq_true_eq] at ha hb
    exact reserved_apart_of_aliveAt halign (hoffsets a ha.1) (hoffsets b hb.1) hclash ha.2 hb.2
  · obtain ⟨q, hq, rfl⟩ := List.mem_map.mp hr
    have hmem := (List.mem_filter.mp hq).1
    have hpos := (alignUp_pos_iff halign).mp (Nat.pos_of_ne_zero hfull)
    exact Placement.reserved_stop_le halign (hoffsets q hmem) hpeak (hends q hmem hpos)

/-- No valid plan can do with less than the live bytes, whoever made it: if all offsets and the block
are multiples of a power of two, the block holds the buffers alive at any operator, each rounded up. -/
theorem peakLiveBytes_le_peak (halign : IsPowerOfTwo align) (hvalid : p.validate = .ok ())
    (hoffsets : ∀ q ∈ p.placements, align ∣ q.offset) (hpeak : align ∣ p.peak) :
    peakLiveBytes (p.placements.map Placement.lifetime) align ≤ p.peak := by
  refine foldl_max_le (Nat.zero_le _) fun bytes hbytes => ?_
  obtain ⟨k, -, rfl⟩ := List.mem_map.mp hbytes
  exact liveBytes_le_peak halign hvalid hoffsets hpeak k

/-- A plan of four buffers that reuses bytes, and a fifth one without bytes outside the block. -/
def reusing : Plan :=
  { strategy := "by hand"
    placements := [⟨⟨.tensor 0, 0, 1, 20⟩, 16⟩, ⟨⟨.tensor 1, 1, 2, 9⟩, 0⟩,
      ⟨⟨.tensor 2, 2, 3, 30⟩, 16⟩, ⟨⟨.scratch 3 0, 3, 3, 16⟩, 0⟩, ⟨⟨.tensor 3, 0, 3, 0⟩, 64⟩]
    peak := 48 }

/-- It needs all of its 48 bytes. -/
theorem peakLiveBytes_le_peak_of_reusing :
    peakLiveBytes (reusing.placements.map Placement.lifetime) 16 ≤ reusing.peak ∧
      peakLiveBytes (reusing.placements.map Placement.lifetime) 16 = 48 :=
  ⟨peakLiveBytes_le_peak (by decide) (by decide) (by decide) (by decide), by decide⟩

end Plan

/-! ## The bytes of all buffers -/

/-- The bytes reserved for all buffers together. -/
def reservedBytes (lifetimes : List Lifetime) (align : Nat) : Nat :=
  total (lifetimes.map fun l => alignUp l.size align)

theorem reservedBytes_cons (l : Lifetime) (rest : List Lifetime) (align : Nat) :
    reservedBytes (l :: rest) align = alignUp l.size align + reservedBytes rest align :=
  rfl

theorem reservedBytes_perm {ls ms : List Lifetime} (h : ls.Perm ms) (align : Nat) :
    reservedBytes ls align = reservedBytes ms align :=
  total_perm (h.map _)

namespace FirstFit

/-- One step raises the largest end by the bytes reserved at most. -/
theorem stop_le_put {align bound : Nat} {spots : List Spot} (h : ∀ s ∈ spots, s.stop ≤ bound)
    (e : Lifetime × Nat) : ∀ s ∈ put align spots e, s.stop ≤ bound + alignUp e.1.size align := by
  intro s hs
  rcases mem_insert.mp hs with rfl | hs
  · have hstart : gap e.1 (alignUp e.1.size align) spots 0 ≤ bound := by
      rcases gap_eq e.1 (alignUp e.1.size align) spots 0 with hzero | ⟨t, ht, hstop⟩
      · omega
      · have := h t ht
        omega
    refine Nat.le_trans (Nat.min_le_left ..) (Nat.add_le_add_right ?_ _)
    split
    · exact hstart
    · exact Nat.zero_le bound
  · exact Nat.le_trans (h s hs) (Nat.le_add_right ..)

theorem stop_le_foldl_put {align bound : Nat} (es : List (Lifetime × Nat)) {spots : List Spot}
    (h : ∀ s ∈ spots, s.stop ≤ bound) :
    ∀ s ∈ es.foldl (put align) spots, s.stop ≤ bound + reservedBytes (es.map Prod.fst) align := by
  induction es generalizing bound spots with
  | nil => exact h
  | cons e rest ih =>
    intro s hs
    have hstop := ih (stop_le_put h e) s hs
    rw [List.map_cons, reservedBytes_cons]
    omega

/-- First fit needs no more than all buffers one after another. -/
theorem peak_le_reservedBytes (lifetimes : List Lifetime) (align : Nat) :
    (plan lifetimes align).peak ≤ reservedBytes lifetimes align := by
  refine foldl_max_le (Nat.zero_le _) fun stop hstop => ?_
  obtain ⟨s, hs, rfl⟩ := List.mem_map.mp hstop
  have hnone : ∀ s ∈ ([] : List Spot), s.stop ≤ 0 := nofun
  have hle := stop_le_foldl_put (entries lifetimes) hnone s hs
  have hperm := (entries_perm lifetimes).map Prod.fst
  rw [List.zipIdx_map_fst] at hperm
  rwa [Nat.zero_add, reservedBytes_perm hperm] at hle

end FirstFit

namespace Linear

/-- The cursor stops at the sum, or at the largest word. -/
theorem layOut_stop (align : Nat) (lifetimes : List Lifetime) {cursor : Nat}
    (h : cursor ≤ Word.max) :
    (layOut align lifetimes cursor).2 = Word.addSat cursor (reservedBytes lifetimes align) := by
  induction lifetimes generalizing cursor with
  | nil => exact (Nat.min_eq_left h).symm
  | cons l rest ih =>
    have hrest := ih (Nat.min_le_right (cursor + alignUp l.size align) Word.max)
    rw [reservedBytes_cons]
    simp only [layOut, Word.addSat] at hrest ⊢
    omega

theorem peak_eq (lifetimes : List Lifetime) (align : Nat) :
    (plan lifetimes align).peak = Word.addSat 0 (reservedBytes lifetimes align) :=
  layOut_stop align lifetimes (Nat.zero_le _)

end Linear

namespace Strategy

/-- Wherever linear placement succeeds, first fit does, in a block that is no larger. -/
theorem firstFit_needs_no_more {lifetimes : List Lifetime} {align capacity : Nat} {p : Plan}
    (h : linear.place lifetimes align capacity = .ok p) :
    ∃ q, firstFit.place lifetimes align capacity = .ok q ∧ q.peak ≤ p.peak := by
  obtain ⟨halign, hordered, rfl, hle⟩ := checked_within_ok h
  have hpeak : (FirstFit.plan lifetimes align).peak ≤ (Linear.plan lifetimes align).peak := by
    rw [Linear.peak_eq]
    refine Nat.le_min.mpr ⟨?_, FirstFit.peak_le_max halign lifetimes⟩
    rw [Nat.zero_add]
    exact FirstFit.peak_le_reservedBytes lifetimes align
  exact ⟨_, checked_within_of halign hordered (Nat.le_trans hpeak hle), hpeak⟩

/-- Two buffers that are never alive together, and one that meets both. -/
def twoSlots : List Lifetime :=
  [⟨.tensor 0, 0, 0, 20⟩, ⟨.tensor 1, 1, 1, 20⟩, ⟨.tensor 2, 0, 1, 9⟩]

theorem firstFit_needs_no_more_of_twoSlots :
    ∃ p q, linear.place twoSlots 16 80 = .ok p ∧ firstFit.place twoSlots 16 80 = .ok q ∧
      q.peak ≤ p.peak ∧ p.peak = 80 ∧ q.peak = 48 := by
  have hlinear : linear.place twoSlots 16 80 = .ok (Linear.plan twoSlots 16) := rfl
  obtain ⟨q, hplace, hle⟩ := firstFit_needs_no_more hlinear
  have hspots : FirstFit.spots twoSlots 16 = [⟨0, ⟨.tensor 0, 0, 0, 20⟩, 0, 32⟩,
      ⟨1, ⟨.tensor 1, 1, 1, 20⟩, 0, 32⟩, ⟨2, ⟨.tensor 2, 0, 1, 9⟩, 32, 48⟩] := by
    rw [FirstFit.spots, List.mergeSort_of_pairwise (by decide)]
    decide +kernel
  obtain ⟨-, -, rfl, -⟩ := checked_within_ok hplace
  refine ⟨_, _, hlinear, hplace, hle, rfl, ?_⟩
  simp only [FirstFit.plan, hspots]
  rfl

end Strategy

end TensorArena
