import TensorArena.Proofs.Plan.Order
import Mathlib.Data.List.Forall2
import Mathlib.Data.List.Perm.Basic
import Mathlib.Order.Bounds.Defs

/-!
# First fit takes the lowest offset

The search for a gap goes once through the spots, by offset, and stops at the first spot behind a gap
that is large enough. What it has passed by then leaves no room below, so the offset is the least one
that is clear of everything placed before: `gap_le` says that nothing lower is clear, and `gap_clear`
that this one is.

Positions do not enter the search. Two runs over the same lifetimes, numbered differently, place their
spots `Alike`; so, without ties, the order of the input changes no offset.
-/

namespace TensorArena

theorem Word.addSat_mono {a b : Nat} (h : a ≤ b) (c : Nat) :
    Word.addSat a c ≤ Word.addSat b c := by
  simp only [Word.addSat]
  omega

/-- The offsets at which a buffer would keep clear of all buffers of the plan that hold bytes, are
placed sooner and are alive together with it, each rounded up to the alignment. -/
def Plan.clearOffsets (p : Plan) (align : Nat) (e : Lifetime × Nat) : Set Nat :=
  {offset | ∀ j r, p.placements[j]? = some r → FirstFit.Sooner (r.lifetime, j) e →
    0 < r.lifetime.size → r.lifetime.Overlaps e.1 →
      (r.reserved align).Apart (Placement.reserved ⟨e.1, offset⟩ align)}

namespace FirstFit

/-! ## Nothing lower is clear -/

theorem gap_le {l : Lifetime} {reserved bound : Nat} {spots : List Spot} {offset : Nat}
    (hoffset : offset ≤ bound)
    (hclear : ∀ s ∈ spots, s.lifetime.Overlaps l → s.stop ≠ s.start →
      s.stop ≤ bound ∨ Word.addSat bound reserved ≤ s.start) :
    gap l reserved spots offset ≤ bound := by
  induction spots generalizing offset with
  | nil => exact hoffset
  | cons s rest ih =>
    obtain ⟨hfirst, hrest⟩ := List.forall_mem_cons.mp hclear
    unfold gap
    split
    · exact ih hoffset hrest
    · rename_i hmet
      split
      · exact hoffset
      · rename_i hlarge
        rw [not_or, Decidable.not_not] at hmet
        refine ih (Nat.max_le.mpr ⟨hoffset, ?_⟩) hrest
        -- A buffer at `bound` that ended before `s` would end there at `offset` all the more.
        rcases hfirst hmet.1 hmet.2 with hle | hle
        · exact hle
        · exact absurd (Nat.le_trans (Word.addSat_mono hoffset reserved) hle) hlarge

section

variable {lifetimes : List Lifetime} {align capacity : Nat}

/-- A buffer without bytes lies at the start. -/
theorem start_eq_zero (halign : IsPowerOfTwo align) {s : Spot} (hs : s ∈ spots lifetimes align)
    (hsize : s.lifetime.size = 0) : s.start = 0 := by
  obtain ⟨earlier, -, -, hstart⟩ := exists_earlier halign hs
  rw [hstart, hsize, alignUp_zero halign]
  rfl

/-- In a block below the largest word, a buffer that holds bytes lies at the least offset that is clear
of what was placed before. -/
theorem isLeast_start (halign : IsPowerOfTwo align)
    (hpeak : (plan lifetimes align).peak < Word.max) {s : Spot} (hs : s ∈ spots lifetimes align)
    (hsize : 0 < s.lifetime.size) :
    IsLeast ((plan lifetimes align).clearOffsets align s.entry) s.start := by
  have hreserved := (alignUp_pos_iff halign).mpr hsize
  have hstop : ∀ t ∈ spots lifetimes align, _ := fun t ht =>
    (spots_arranged halign lifetimes).reserved_stop hpeak ht
  obtain ⟨earlier, arranged, hearlier, hstart⟩ := exists_earlier halign hs
  rw [if_pos hreserved] at hstart
  constructor
  · intro j r hr hsooner hpos hover
    obtain ⟨t, ht, rfl, rfl⟩ := exists_spot_of_getElem? hr
    have hfull : t.stop ≠ t.start := by
      have := (hstop t ht).1
      have := (alignUp_pos_iff halign).mpr hpos
      simp only [Placement.reserved, ByteRange.stop] at *
      omega
    have hclear := gap_clear s.lifetime (alignUp s.lifetime.size align) arranged.sorted 0 t
      ((hearlier t).mpr ⟨ht, hsooner⟩) hover hfull
    rw [← hstart, ← (spots_arranged halign lifetimes).stop_eq s hs] at hclear
    rcases hclear with hle | hle
    · exact ByteRange.apart_of_stop_le ((hstop t ht).1 ▸ hle)
    · exact (ByteRange.apart_of_stop_le ((hstop s hs).1 ▸ hle)).symm
  · intro offset hoffset
    rw [hstart]
    refine gap_le (Nat.zero_le _) fun t ht hover hfull => ?_
    obtain ⟨ht, hsooner⟩ := (hearlier t).mp ht
    have htstop := (hstop t ht).1
    have hpos : 0 < alignUp t.lifetime.size align := by
      simp only [Placement.reserved, ByteRange.stop] at htstop
      omega
    have hapart := hoffset t.index t.placement (getElem?_placements ht) hsooner
      ((alignUp_pos_iff halign).mp hpos) hover
    rcases hapart.le_or_le (Nat.ne_of_gt hpos) (Nat.ne_of_gt hreserved) with hle | hle
    · exact .inl (htstop ▸ hle)
    · exact .inr (Nat.le_trans (Nat.min_le_left ..) hle)

/-- The block ends where the last of the reserved bytes do. -/
theorem peak_eq (halign : IsPowerOfTwo align) (hpeak : (plan lifetimes align).peak < Word.max) :
    (plan lifetimes align).peak =
      ((plan lifetimes align).placements.map fun q => (q.reserved align).stop).foldl max 0 := by
  have hperm := (placements_perm lifetimes align).map fun q => (q.reserved align).stop
  rw [hperm.foldl_eq, List.map_map]
  refine congrArg (List.foldl max 0) (List.map_congr_left fun s hs => ?_)
  exact ((spots_arranged halign lifetimes).reserved_stop hpeak hs).1.symm

/-! ## Buffers that are never alive together -/

/-- All buffers lie at the start when no two that hold bytes are ever alive together. -/
theorem start_eq_zero_of_alone (halign : IsPowerOfTwo align)
    (halone : lifetimes.Pairwise fun l l' => l.Overlaps l' → l.size = 0 ∨ l'.size = 0) {s : Spot}
    (hs : s ∈ spots lifetimes align) : s.start = 0 := by
  rcases Nat.eq_zero_or_pos s.lifetime.size with hzero | hpos
  · exact start_eq_zero halign hs hzero
  obtain ⟨earlier, -, hearlier, hstart⟩ := exists_earlier halign hs
  rw [hstart, if_pos ((alignUp_pos_iff halign).mpr hpos)]
  refine Nat.le_zero.mp (gap_le (Nat.le_refl 0) fun t ht hover hfull => absurd ?_ hfull)
  obtain ⟨ht, hsooner⟩ := (hearlier t).mp ht
  have hne : t.index ≠ s.index := fun heq => by
    rw [spot_eq_of_index ht hs heq] at hsooner
    exact hsooner.asymm hsooner
  have hempty : t.lifetime.size = 0 := by
    have hfirst : lifetimes[t.index]? = some t.lifetime := mem_entries.mp (entry_mem ht)
    have hsecond : lifetimes[s.index]? = some s.lifetime := mem_entries.mp (entry_mem hs)
    obtain ⟨hlt, hfirst⟩ := List.getElem?_eq_some_iff.mp hfirst
    obtain ⟨hlt', hsecond⟩ := List.getElem?_eq_some_iff.mp hsecond
    rw [← hfirst, ← hsecond] at hover
    rw [← hsecond] at hpos
    rw [← hfirst]
    rcases Nat.lt_or_gt_of_ne hne with hless | hless
    · exact (List.pairwise_iff_getElem.mp halone _ _ hlt hlt' hless hover).resolve_right
        (Nat.ne_of_gt hpos)
    · exact (List.pairwise_iff_getElem.mp halone _ _ hlt' hlt hless hover.symm).resolve_left
        (Nat.ne_of_gt hpos)
  rw [(spots_arranged halign lifetimes).stop_eq t ht, hempty, start_eq_zero halign ht hempty,
    alignUp_zero halign]
  rfl

theorem placements_of_alone (halign : IsPowerOfTwo align)
    (halone : lifetimes.Pairwise fun l l' => l.Overlaps l' → l.size = 0 ∨ l'.size = 0) :
    ∀ q ∈ (plan lifetimes align).placements, q.offset = 0 := by
  intro q hq
  obtain ⟨i, hi⟩ := List.mem_iff_getElem?.mp hq
  obtain ⟨s, hs, -, rfl⟩ := exists_spot_of_getElem? hi
  exact start_eq_zero_of_alone halign halone hs

/-- They need no more bytes than the largest of them. -/
theorem peak_le_of_alone (halign : IsPowerOfTwo align)
    (halone : lifetimes.Pairwise fun l l' => l.Overlaps l' → l.size = 0 ∨ l'.size = 0) {bound : Nat}
    (hbound : ∀ l ∈ lifetimes, alignUp l.size align ≤ bound) :
    (plan lifetimes align).peak ≤ bound := by
  refine foldl_max_le (Nat.zero_le _) (List.forall_mem_map.mpr fun s hs => ?_)
  have hmem : s.lifetime ∈ lifetimes := List.mem_of_getElem? (mem_entries.mp (entry_mem hs))
  rw [(spots_arranged halign lifetimes).stop_eq s hs, start_eq_zero_of_alone halign halone hs]
  have hle := hbound _ hmem
  simp only [Word.addSat]
  omega

end

/-! ## Positions decide nothing but ties -/

/-- Two spots that differ in their positions at most. -/
structure Spot.Alike (s t : Spot) : Prop where
  lifetime_eq : s.lifetime = t.lifetime
  start_eq : s.start = t.start
  stop_eq : s.stop = t.stop

section

variable {spots spots' : List Spot} {align : Nat}

theorem gap_alike (h : List.Forall₂ Spot.Alike spots spots') (l : Lifetime)
    (reserved offset : Nat) : gap l reserved spots offset = gap l reserved spots' offset := by
  induction h generalizing offset with
  | nil => rfl
  | cons hst _ ih =>
    obtain ⟨hlifetime, hstart, hstop⟩ := hst
    simp only [gap, hlifetime, hstart, hstop, ih]

theorem insert_alike {s s' : Spot} (hs : s.Alike s') (h : List.Forall₂ Spot.Alike spots spots') :
    List.Forall₂ Spot.Alike (insert s spots) (insert s' spots') := by
  induction h with
  | nil => exact .cons hs .nil
  | cons htu hrest ih =>
    unfold insert
    rw [htu.start_eq, hs.start_eq]
    split
    · exact .cons htu ih
    · exact .cons hs (.cons htu hrest)

theorem put_alike (h : List.Forall₂ Spot.Alike spots spots') {e e' : Lifetime × Nat}
    (he : e.1 = e'.1) : List.Forall₂ Spot.Alike (put align spots e) (put align spots' e') := by
  obtain ⟨l, i⟩ := e
  obtain ⟨l', i'⟩ := e'
  obtain rfl : l = l' := he
  unfold put
  dsimp only
  rw [gap_alike h]
  exact insert_alike ⟨rfl, rfl, rfl⟩ h

theorem foldl_put_alike {es es' : List (Lifetime × Nat)} (hes : es.map Prod.fst = es'.map Prod.fst)
    (h : List.Forall₂ Spot.Alike spots spots') :
    List.Forall₂ Spot.Alike (es.foldl (put align) spots) (es'.foldl (put align) spots') := by
  induction es generalizing es' spots spots' with
  | nil =>
    rw [List.map_nil, eq_comm, List.map_eq_nil_iff] at hes
    rwa [hes]
  | cons e rest ih =>
    rw [List.map_cons, eq_comm, List.map_eq_cons_iff] at hes
    obtain ⟨e', rest', rfl, he, hrest⟩ := hes
    rw [List.foldl_cons, List.foldl_cons]
    exact ih hrest.symm (put_alike h he.symm)

end

section

variable {lifetimes lifetimes' : List Lifetime} (align : Nat)

theorem spots_alike (h : lifetimes'.Perm lifetimes)
    (distinct : (lifetimes.map Lifetime.buffer).Nodup) :
    List.Forall₂ Spot.Alike (spots lifetimes' align) (spots lifetimes align) :=
  foldl_put_alike (map_fst_entries_of_perm h distinct) .nil

theorem map_eq_of_alike {α : Type} {f : Spot → α} (hf : ∀ s t, s.Alike t → f s = f t)
    {spots spots' : List Spot} (h : List.Forall₂ Spot.Alike spots spots') :
    spots.map f = spots'.map f := by
  induction h with
  | nil => rfl
  | cons hst _ ih => rw [List.map_cons, List.map_cons, hf _ _ hst, ih]

/-- Rearranging the input rearranges the placements. -/
theorem plan_perm (h : lifetimes'.Perm lifetimes)
    (distinct : (lifetimes.map Lifetime.buffer).Nodup) :
    (plan lifetimes' align).placements.Perm (plan lifetimes align).placements ∧
      (plan lifetimes' align).peak = (plan lifetimes align).peak := by
  have alike := spots_alike align h distinct
  have hplacement := map_eq_of_alike (f := Spot.placement)
    (fun s t hst => congrArg₂ Placement.mk hst.lifetime_eq hst.start_eq) alike
  have hstop := map_eq_of_alike (f := Spot.stop) (fun s t hst => hst.stop_eq) alike
  refine ⟨?_, congrArg (List.foldl max 0) hstop⟩
  exact (placements_perm lifetimes' align).trans
    ((List.Perm.of_eq hplacement).trans (placements_perm lifetimes align).symm)

end

end FirstFit

/-! ## Offsets of buffers -/

namespace Plan

variable {p p' : Plan}

/-- A buffer that is placed once has the offset of its placement. -/
theorem offsetOf?_eq_some_iff (distinct : (p.placements.map fun q => q.lifetime.buffer).Nodup)
    {b : BufferId} {offset : Nat} :
    p.offsetOf? b = some offset ↔ ∃ q ∈ p.placements, q.lifetime.buffer = b ∧ q.offset = offset := by
  rw [offsetOf?, Option.map_eq_some_iff]
  constructor
  · rintro ⟨q, hfind, hoffset⟩
    exact ⟨q, List.mem_of_find?_eq_some hfind, by simpa using List.find?_some hfind, hoffset⟩
  · rintro ⟨q, hq, hbuffer, hoffset⟩
    refine ⟨q, ?_, hoffset⟩
    cases hfind : p.placements.find? fun q => q.lifetime.buffer = b with
    | none => exact absurd hbuffer (by simpa using List.find?_eq_none.mp hfind q hq)
    | some r =>
      have hr : r.lifetime.buffer = b := by simpa using List.find?_some hfind
      rw [List.inj_on_of_nodup_map distinct (List.mem_of_find?_eq_some hfind) hq
        (hr.trans hbuffer.symm)]

theorem offsetOf?_perm (h : p'.placements.Perm p.placements)
    (distinct : (p.placements.map fun q => q.lifetime.buffer).Nodup) (b : BufferId) :
    p'.offsetOf? b = p.offsetOf? b := by
  have distinct' := ((h.map fun q => q.lifetime.buffer).nodup_iff).mpr distinct
  ext offset
  rw [offsetOf?_eq_some_iff distinct, offsetOf?_eq_some_iff distinct']
  simp only [h.mem_iff]

end Plan

/-! ## First fit in size order -/

namespace Strategy

/-- Where no two buffers that hold bytes are ever alive together, all of them get the same bytes. -/
theorem firstFit_of_alone {lifetimes : List Lifetime} {align capacity bound : Nat}
    (halign : IsPowerOfTwo align) (hordered : ∀ l ∈ lifetimes, l.first ≤ l.last)
    (halone : lifetimes.Pairwise fun l l' => l.Overlaps l' → l.size = 0 ∨ l'.size = 0)
    (hbound : ∀ l ∈ lifetimes, alignUp l.size align ≤ bound) (hroom : bound ≤ capacity) :
    ∃ p, firstFit.place lifetimes align capacity = .ok p ∧ p.peak ≤ bound ∧
      ∀ q ∈ p.placements, q.offset = 0 := by
  have hpeak := FirstFit.peak_le_of_alone halign halone hbound
  exact ⟨_, checked_within_of halign hordered (Nat.le_trans hpeak hroom), hpeak,
    FirstFit.placements_of_alone halign halone⟩

/-- In a block below the largest word first fit takes the buffers by size downward, then first
operator, then buffer, then position, and gives each that holds bytes the least offset at which it is,
rounded up to the alignment, clear of all buffers placed before it that hold bytes and are alive
together with it; a buffer without bytes lies at the start. The block ends where the last of the
rounded buffers does. When no two buffers have one id, another arrangement of the input gets the same
placements in its own order, and each buffer keeps its offset. -/
theorem firstFit_takes_lowest {lifetimes : List Lifetime} {align capacity : Nat}
    (hcapacity : capacity < Word.max) {p : Plan}
    (h : firstFit.place lifetimes align capacity = .ok p) :
    p.placements.map Placement.lifetime = lifetimes ∧
      (∀ i q, p.placements[i]? = some q →
        (q.lifetime.size = 0 → q.offset = 0) ∧
        (0 < q.lifetime.size → IsLeast (p.clearOffsets align (q.lifetime, i)) q.offset)) ∧
      p.peak = (p.placements.map fun q => (q.reserved align).stop).foldl max 0 ∧
      ((lifetimes.map Lifetime.buffer).Nodup → ∀ lifetimes', lifetimes'.Perm lifetimes →
        ∃ p', firstFit.place lifetimes' align capacity = .ok p' ∧
          p'.placements.map Placement.lifetime = lifetimes' ∧
          p'.placements.Perm p.placements ∧ p'.peak = p.peak ∧
          ∀ b, p'.offsetOf? b = p.offsetOf? b) := by
  obtain ⟨halign, hordered, rfl, hle⟩ := checked_within_ok h
  have hpeak : (FirstFit.plan lifetimes align).peak < Word.max := Nat.lt_of_le_of_lt hle hcapacity
  have hlifetimes := (FirstFit.plan_kept halign hle).lifetimes_eq
  refine ⟨hlifetimes, fun i q hq => ?_, FirstFit.peak_eq halign hpeak, ?_⟩
  · obtain ⟨s, hs, rfl, rfl⟩ := FirstFit.exists_spot_of_getElem? hq
    exact ⟨FirstFit.start_eq_zero halign hs, FirstFit.isLeast_start halign hpeak hs⟩
  · intro distinct lifetimes' hperm
    obtain ⟨hplacements, hpeaks⟩ := FirstFit.plan_perm align hperm distinct
    have hle' : (FirstFit.plan lifetimes' align).peak ≤ capacity := hpeaks ▸ hle
    refine ⟨_, checked_within_of halign (fun l hl => hordered l (hperm.mem_iff.mp hl)) hle',
      (FirstFit.plan_kept halign hle').lifetimes_eq, hplacements, hpeaks, fun b => ?_⟩
    refine Plan.offsetOf?_perm hplacements ?_ b
    rwa [← hlifetimes, List.map_map] at distinct

def fiveBuffers : List Lifetime :=
  [⟨.tensor 0, 0, 3, 60⟩, ⟨.tensor 1, 0, 1, 40⟩, ⟨.tensor 2, 0, 3, 30⟩, ⟨.tensor 3, 2, 3, 20⟩,
    ⟨.tensor 4, 2, 3, 0⟩]

/-- The fourth one takes bytes of the second, which is alive before it, below the third one; and it
does so wherever it stands in the input. -/
theorem firstFit_takes_lowest_of_five :
    ∃ p, firstFit.place fiveBuffers 16 144 = .ok p ∧
      p.placements.map Placement.offset = [0, 64, 112, 64, 0] ∧ p.peak = 144 ∧
      IsLeast (p.clearOffsets 16 (⟨.tensor 3, 2, 3, 20⟩, 3)) 64 ∧
      ∃ p', firstFit.place fiveBuffers.reverse 16 144 = .ok p' ∧
        p'.offsetOf? (.tensor 3) = some 64 := by
  have hspots : FirstFit.spots fiveBuffers 16 = [⟨0, ⟨.tensor 0, 0, 3, 60⟩, 0, 64⟩,
      ⟨4, ⟨.tensor 4, 2, 3, 0⟩, 0, 0⟩, ⟨1, ⟨.tensor 1, 0, 1, 40⟩, 64, 112⟩,
      ⟨3, ⟨.tensor 3, 2, 3, 20⟩, 64, 96⟩, ⟨2, ⟨.tensor 2, 0, 3, 30⟩, 112, 144⟩] := by
    rw [FirstFit.spots, List.mergeSort_of_pairwise (by decide)]
    decide +kernel
  have hplan : FirstFit.plan fiveBuffers 16 =
      ⟨FirstFit.name, [⟨⟨.tensor 0, 0, 3, 60⟩, 0⟩, ⟨⟨.tensor 1, 0, 1, 40⟩, 64⟩,
        ⟨⟨.tensor 2, 0, 3, 30⟩, 112⟩, ⟨⟨.tensor 3, 2, 3, 20⟩, 64⟩, ⟨⟨.tensor 4, 2, 3, 0⟩, 0⟩],
        144⟩ := by
    simp only [FirstFit.plan, hspots]
    rfl
  have hplace : firstFit.place fiveBuffers 16 144 = .ok (FirstFit.plan fiveBuffers 16) := by
    rw [hplan]
    simp only [firstFit, FirstFit.place, hplan]
    rfl
  obtain ⟨-, hlowest, -, harranged⟩ := firstFit_takes_lowest (by decide) hplace
  obtain ⟨p', hplace', -, -, -, hoffsets⟩ :=
    harranged (by decide) fiveBuffers.reverse (List.reverse_perm _)
  rw [hplan] at hplace hlowest hoffsets
  refine ⟨_, hplace, rfl, rfl, (hlowest 3 _ rfl).2 (by decide), p', hplace', ?_⟩
  rw [hoffsets]
  decide

end Strategy

end TensorArena
