import TensorArena.Proofs.Plan.Contract

/-!
# First fit keeps its promise

The spots placed so far are `Arranged`: sorted by offset, with aligned starts, and apart wherever
their lifetimes meet. `gap_clear` is the heart: the offset that the search returns is clear of every
spot that matters, because the spots before the gap end below it and the ones after it, being sorted,
start above its end.
-/

namespace TensorArena

namespace FirstFit

/-! ## The search for a gap -/

theorem le_gap (l : Lifetime) (reserved : Nat) (spots : List Spot) (offset : Nat) :
    offset ≤ gap l reserved spots offset := by
  induction spots generalizing offset with
  | nil => exact Nat.le_refl _
  | cons s rest ih =>
    unfold gap
    split
    · exact ih offset
    · split
      · exact Nat.le_refl _
      · exact Nat.le_trans (Nat.le_max_left ..) (ih _)

/-- The search ends where it started or at the end of a spot. -/
theorem gap_eq (l : Lifetime) (reserved : Nat) (spots : List Spot) (offset : Nat) :
    gap l reserved spots offset = offset ∨ ∃ s ∈ spots, gap l reserved spots offset = s.stop := by
  induction spots generalizing offset with
  | nil => exact .inl rfl
  | cons s rest ih =>
    have lift : ∀ n, (gap l reserved rest n = n ∨ ∃ t ∈ rest, gap l reserved rest n = t.stop) →
        gap l reserved rest n = n ∨ ∃ t ∈ s :: rest, gap l reserved rest n = t.stop :=
      fun n h => h.imp_right fun ⟨t, ht, he⟩ => ⟨t, List.mem_cons_of_mem _ ht, he⟩
    unfold gap
    split
    · exact lift _ (ih offset)
    · split
      · exact .inl rfl
      · rcases lift _ (ih (max offset s.stop)) with h | h
        · by_cases hle : s.stop ≤ offset
          · exact .inl (h.trans (Nat.max_eq_left hle))
          · exact .inr ⟨s, List.mem_cons_self, h.trans (Nat.max_eq_right (by omega))⟩
        · exact .inr h

/-- The offset found is clear of every spot that is alive together with the buffer: the spot ends
there or before, or starts after the reserved bytes. -/
theorem gap_clear (l : Lifetime) (reserved : Nat) {spots : List Spot}
    (sorted : spots.Pairwise fun s t => s.start ≤ t.start) (offset : Nat) :
    ∀ s ∈ spots, s.lifetime.Overlaps l → s.stop ≠ s.start →
      s.stop ≤ gap l reserved spots offset ∨
        Word.addSat (gap l reserved spots offset) reserved ≤ s.start := by
  induction spots generalizing offset with
  | nil => nofun
  | cons s rest ih =>
    obtain ⟨hfirst, hrest⟩ := List.pairwise_cons.mp sorted
    intro t ht hover hne
    unfold gap
    split
    · rename_i hskip
      rcases List.mem_cons.mp ht with rfl | ht
      · rcases hskip with hskip | hskip
        · exact absurd hover hskip
        · exact absurd hskip hne
      · exact ih hrest offset t ht hover hne
    · split
      · rename_i hfits
        -- The buffer fits before `s`, and all later spots start no earlier than `s`.
        right
        rcases List.mem_cons.mp ht with rfl | ht
        · exact hfits
        · exact Nat.le_trans hfits (hfirst t ht)
      · rcases List.mem_cons.mp ht with rfl | ht
        · exact .inl (Nat.le_trans (Nat.le_max_right ..) (le_gap ..))
        · exact ih hrest _ t ht hover hne

/-! ## Spots in order -/

theorem mem_insert {s t : Spot} {spots : List Spot} :
    t ∈ insert s spots ↔ t = s ∨ t ∈ spots := by
  induction spots with
  | nil => simp [insert]
  | cons u rest ih =>
    unfold insert
    split
    · simp only [List.mem_cons, ih]
      exact or_left_comm
    · simp only [List.mem_cons]

theorem insert_sorted {s : Spot} {spots : List Spot}
    (sorted : spots.Pairwise fun s t => s.start ≤ t.start) :
    (insert s spots).Pairwise fun s t => s.start ≤ t.start := by
  induction spots with
  | nil => exact List.pairwise_singleton _ _
  | cons u rest ih =>
    obtain ⟨hfirst, hrest⟩ := List.pairwise_cons.mp sorted
    unfold insert
    split
    · rename_i hle
      refine List.pairwise_cons.mpr ⟨fun t ht => ?_, ih hrest⟩
      rcases mem_insert.mp ht with rfl | ht
      · exact hle
      · exact hfirst t ht
    · rename_i hlt
      refine List.pairwise_cons.mpr ⟨fun t ht => ?_, sorted⟩
      rcases List.mem_cons.mp ht with rfl | ht
      · omega
      · have := hfirst t ht
        omega

/-- The spots placed so far. Two spots of different buffers that are alive together and reserve
bytes lie one after the other. -/
structure Arranged (align : Nat) (spots : List Spot) : Prop where
  sorted : spots.Pairwise fun s t => s.start ≤ t.start
  stop_eq : ∀ s ∈ spots, s.stop = Word.addSat s.start (alignUp s.lifetime.size align)
  aligned : ∀ s ∈ spots, s.start < Word.max → align ∣ s.start
  apart : ∀ s ∈ spots, ∀ t ∈ spots, s.index ≠ t.index → s.lifetime.Overlaps t.lifetime →
    s.start < s.stop → t.start < t.stop → s.stop ≤ t.start ∨ t.stop ≤ s.start

theorem Arranged.dvd_stop {align : Nat} {spots : List Spot} (h : Arranged align spots)
    (hp : IsPowerOfTwo align) {s : Spot} (hs : s ∈ spots) (hlt : s.stop < Word.max) :
    align ∣ s.stop := by
  have heq := h.stop_eq s hs
  rw [heq] at hlt
  rw [Word.addSat_of_lt hlt] at heq hlt
  rw [heq]
  exact Nat.dvd_add (h.aligned s hs (by omega)) (dvd_alignUp hp _)

theorem Arranged.put {align : Nat} {spots : List Spot} (h : Arranged align spots)
    (hp : IsPowerOfTwo align) (entry : Lifetime × Nat) : Arranged align (put align spots entry) := by
  obtain ⟨l, index⟩ := entry
  unfold FirstFit.put
  dsimp only
  generalize hr : alignUp l.size align = reserved
  generalize hstart : (if 0 < reserved then gap l reserved spots 0 else 0) = start
  -- A buffer without bytes goes to the start, where it clashes with nothing.
  have clear : ∀ s ∈ spots, s.lifetime.Overlaps l → s.start < s.stop →
      start < Word.addSat start reserved → s.stop ≤ start ∨ Word.addSat start reserved ≤ s.start := by
    intro s hs hover hne hnew
    have hpos : 0 < reserved := by
      simp only [Word.addSat] at hnew
      omega
    rw [if_pos hpos] at hstart
    rw [← hstart]
    exact gap_clear l reserved h.sorted 0 s hs hover (by omega)
  refine ⟨insert_sorted h.sorted, fun s hs => ?_, fun s hs hlt => ?_, fun s hs t ht => ?_⟩
  · rcases mem_insert.mp hs with rfl | hs
    · rw [hr]
    · exact h.stop_eq s hs
  · rcases mem_insert.mp hs with rfl | hs
    · -- The gap is at zero or where an earlier spot stops.
      dsimp only at hlt ⊢
      split at hstart
      · rcases gap_eq l reserved spots 0 with h₀ | ⟨s, hs, he⟩
        · rw [← hstart, h₀]
          exact Nat.dvd_zero align
        · rw [← hstart, he] at hlt ⊢
          exact h.dvd_stop hp hs hlt
      · rw [← hstart]
        exact Nat.dvd_zero align
    · exact h.aligned s hs hlt
  · intro hne hover hs₁ ht₁
    rcases mem_insert.mp hs with rfl | hs <;> rcases mem_insert.mp ht with rfl | ht
    · exact absurd rfl hne
    · exact (clear t ht hover.symm ht₁ hs₁).symm
    · exact clear s hs hover hs₁ ht₁
    · exact h.apart s hs t ht hne hover hs₁ ht₁

theorem Arranged.foldl_put {align : Nat} (hp : IsPowerOfTwo align)
    (entries : List (Lifetime × Nat)) {spots : List Spot} (h : Arranged align spots) :
    Arranged align (entries.foldl (FirstFit.put align) spots) := by
  induction entries generalizing spots with
  | nil => exact h
  | cons entry rest ih => exact ih (h.put hp entry)

theorem spots_arranged {align : Nat} (hp : IsPowerOfTwo align) (lifetimes : List Lifetime) :
    Arranged align (spots lifetimes align) :=
  .foldl_put hp _ ⟨.nil, nofun, nofun, nofun⟩

/-! ## Every buffer has its spot -/

theorem mem_put {align : Nat} {spots : List Spot} {entry : Lifetime × Nat} {s : Spot}
    (hs : s ∈ put align spots entry) : (s.lifetime, s.index) = entry ∨ s ∈ spots := by
  rcases mem_insert.mp hs with rfl | hs
  · exact .inl rfl
  · exact .inr hs

theorem mem_foldl_put {align : Nat} (entries : List (Lifetime × Nat)) {spots : List Spot}
    {s : Spot} (hs : s ∈ entries.foldl (put align) spots) :
    (s.lifetime, s.index) ∈ entries ∨ s ∈ spots := by
  induction entries generalizing spots with
  | nil => exact .inr hs
  | cons entry rest ih =>
    rcases ih hs with h | h
    · exact .inl (List.mem_cons_of_mem _ h)
    · rcases mem_put h with rfl | h
      · exact .inl List.mem_cons_self
      · exact .inr h

theorem exists_mem_foldl_put (align : Nat) (entries : List (Lifetime × Nat)) (spots : List Spot) :
    (∀ s ∈ spots, s ∈ entries.foldl (put align) spots) ∧
      ∀ e ∈ entries, ∃ s ∈ entries.foldl (put align) spots, (s.lifetime, s.index) = e := by
  induction entries generalizing spots with
  | nil => exact ⟨fun s hs => hs, nofun⟩
  | cons entry rest ih =>
    obtain ⟨hold, hnew⟩ := ih (put align spots entry)
    refine ⟨fun s hs => hold s (mem_insert.mpr (.inr hs)), fun e he => ?_⟩
    rcases List.mem_cons.mp he with rfl | he
    · exact ⟨_, hold _ (mem_insert.mpr (.inl rfl)), rfl⟩
    · exact hnew e he

/-- A spot is there for every position of the input, and holds the lifetime at that position. -/
theorem exists_spot {lifetimes : List Lifetime} (align : Nat) {index : Nat} {l : Lifetime}
    (h : lifetimes[index]? = some l) :
    ∃ s ∈ spots lifetimes align, s.index = index ∧ s.lifetime = l ∧
      offsetAt (spots lifetimes align) index = s.start := by
  have hentry : (l, index) ∈ lifetimes.zipIdx.mergeSort fun a b => before a.1 b.1 := by
    rw [List.mem_mergeSort]
    exact List.mk_mem_zipIdx_iff_getElem?.mpr h
  obtain ⟨s, hs, he⟩ := (exists_mem_foldl_put align _ []).2 _ hentry
  obtain ⟨-, hi⟩ := Prod.mk.inj he
  unfold offsetAt
  cases hf : (spots lifetimes align).find? fun s => s.index = index with
  | none =>
    have := List.find?_eq_none.mp hf s hs
    simp only [hi, decide_true, not_true_eq_false] at this
  | some t =>
    have ht := List.mem_of_find?_eq_some hf
    have hti : t.index = index := by simpa using List.find?_some hf
    rcases mem_foldl_put _ ht with hm | hm
    · rw [List.mem_mergeSort, List.mk_mem_zipIdx_iff_getElem?, hti, h] at hm
      exact ⟨t, ht, hti, (Option.some.inj hm).symm, rfl⟩
    · cases hm

/-! ## The promise -/

/-- A placement of the plan is a spot at its position of the input. -/
theorem exists_spot_of_getElem? {lifetimes : List Lifetime} {align i : Nat} {q : Placement}
    (h : (plan lifetimes align).placements[i]? = some q) :
    ∃ s ∈ spots lifetimes align, s.index = i ∧ q = ⟨s.lifetime, s.start⟩ := by
  simp only [plan, List.getElem?_map, List.getElem?_zipIdx, Option.map_map,
    Option.map_eq_some_iff, Function.comp_apply, Nat.zero_add] at h
  obtain ⟨l, hl, rfl⟩ := h
  obtain ⟨s, hs, hi, rfl, ho⟩ := exists_spot align hl
  exact ⟨s, hs, hi, by rw [ho]⟩

/-- A buffer that ends within a word ends within the bytes reserved for it. -/
theorem Arranged.stop_le {align : Nat} {spots : List Spot} (h : Arranged align spots)
    (hp : IsPowerOfTwo align) {s : Spot} (hs : s ∈ spots)
    (hlt : (Placement.mk s.lifetime s.start).stop < Word.max) :
    (Placement.mk s.lifetime s.start).stop ≤ s.stop := by
  rw [h.stop_eq s hs]
  exact Word.le_addSat (Nat.add_le_add_left (le_alignUp hp _) _) hlt

theorem plan_kept {lifetimes : List Lifetime} {align capacity : Nat} (hp : IsPowerOfTwo align)
    (hpeak : (plan lifetimes align).peak ≤ capacity) :
    (plan lifetimes align).Kept lifetimes align capacity := by
  have arranged := spots_arranged hp lifetimes
  have hmem : ∀ q ∈ (plan lifetimes align).placements,
      ∃ s ∈ spots lifetimes align, q = ⟨s.lifetime, s.start⟩ := by
    intro q hq
    obtain ⟨i, hi⟩ := List.mem_iff_getElem?.mp hq
    obtain ⟨s, hs, -, rfl⟩ := exists_spot_of_getElem? hi
    exact ⟨s, hs, rfl⟩
  refine ⟨?_, hpeak, fun q hq hlt => ?_, fun q hq hlt => ?_, ?_⟩
  · simp only [plan, List.map_map]
    exact List.zipIdx_map_fst ..
  · obtain ⟨s, hs, rfl⟩ := hmem q hq
    simp only [Placement.stop] at hlt
    exact arranged.aligned s hs (by omega)
  · obtain ⟨s, hs, rfl⟩ := hmem q hq
    exact Nat.le_trans (arranged.stop_le hp hs hlt)
      ((le_foldl_max _ 0).2 _ (List.mem_map_of_mem hs))
  · rw [List.pairwise_iff_getElem]
    intro i j hi hj hij hlti hltj
    obtain ⟨s, hs, hsi, hq⟩ := exists_spot_of_getElem? (List.getElem?_eq_getElem hi)
    obtain ⟨t, ht, htj, hq'⟩ := exists_spot_of_getElem? (List.getElem?_eq_getElem hj)
    rw [hq] at hlti ⊢
    rw [hq'] at hltj ⊢
    rintro ⟨hposi, hposj, hover, hclash⟩
    -- The reserved bytes of both are apart, and the bytes in use are among them.
    have hi' := arranged.stop_le hp hs hlti
    have hj' := arranged.stop_le hp ht hltj
    simp only [Placement.stop] at hi' hj' hclash hposi hposj
    have := arranged.apart s hs t ht (by omega) hover (by omega) (by omega)
    omega

end FirstFit

/-- First fit keeps its promise in every plan. -/
theorem Strategy.firstFit_sound : Strategy.firstFit.Sound := by
  intro lifetimes align capacity p h
  obtain ⟨hp, -, rfl, hpeak⟩ := checked_within_ok h
  exact FirstFit.plan_kept hp hpeak

end TensorArena
