import TensorArena.Proofs.Arena.Positions
import TensorArena.Proofs.Plan.FirstFit
import TensorArena.Proofs.Plan.Linear

/-!
# Plans of blocks below the largest word

Ends are cut off at the largest word, so a plan whose block is smaller holds no end that was cut off.
Such a plan is exact: all offsets are aligned, the bytes reserved for a buffer, its size rounded up to
the alignment, end in the block, and buffers that hold bytes and are alive together have reserved
bytes apart. An exact plan passes its own validation.

The capacity has no other part in a plan than to refuse it: both strategies are `Uniform`.
-/

namespace TensorArena

/-! ## Validation -/

/-- Placements pass when those that hold bytes end in the block and no two of them clash. -/
theorem Plan.validatePlacements_eq_ok_iff {strategy : String} {peak : Nat} {ps : List Placement} :
    validatePlacements strategy peak ps = .ok () ↔
      (∀ q ∈ ps, 0 < q.lifetime.size → q.stop ≤ peak) ∧ ps.Pairwise fun a b => ¬ a.Clashes b := by
  induction ps with
  | nil => exact ⟨fun _ => ⟨nofun, .nil⟩, fun _ => rfl⟩
  | cons a rest ih =>
    rw [List.forall_mem_cons, List.pairwise_cons, validatePlacements]
    split
    · rename_i hover
      simp only [reduceCtorEq, false_iff]
      rintro ⟨⟨hfirst, -⟩, -⟩
      have := hfirst hover.1
      omega
    · rename_i hfits
      split
      · rename_i b hb
        have hclash : a.Clashes b := by simpa using List.find?_some hb
        simp only [reduceCtorEq, false_iff]
        rintro ⟨-, hclear, -⟩
        exact hclear b (List.mem_of_find?_eq_some hb) hclash
      · rename_i hnone
        have hclear : ∀ b ∈ rest, ¬ a.Clashes b := by simpa using hnone
        rw [ih]
        refine ⟨fun ⟨hends, hpairs⟩ => ⟨⟨fun hpos => ?_, hends⟩, hclear, hpairs⟩,
          fun ⟨⟨_, hends⟩, _, hpairs⟩ => ⟨hends, hpairs⟩⟩
        omega

/-! ## Exact plans -/

theorem foldl_max_le {ns : List Nat} {b bound : Nat} (hb : b ≤ bound) (h : ∀ n ∈ ns, n ≤ bound) :
    ns.foldl max b ≤ bound := by
  induction ns generalizing b with
  | nil => exact hb
  | cons n rest ih =>
    obtain ⟨hn, hrest⟩ := List.forall_mem_cons.mp h
    exact ih (Nat.max_le.mpr ⟨hb, hn⟩) hrest

theorem Plan.within_of_le {p : Plan} {capacity : Nat} (h : p.peak ≤ capacity) :
    p.within capacity = .ok p :=
  if_neg (Nat.not_lt_of_le h)

/-- The common check refuses nothing else. -/
theorem checkLifetimes_of {lifetimes : List Lifetime} {align : Nat} (halign : IsPowerOfTwo align)
    (hordered : ∀ l ∈ lifetimes, l.first ≤ l.last) : checkLifetimes lifetimes align = .ok () := by
  have hnone : (lifetimes.find? fun l => l.last < l.first) = none := by
    refine List.find?_eq_none.mpr fun l hl => ?_
    have := hordered l hl
    rw [decide_eq_true_eq]
    omega
  rw [checkLifetimes, if_neg (not_not_intro halign), hnone]

/-- For buffers that pass the common check nothing but the capacity decides. -/
theorem checked_within_eq {lifetimes : List Lifetime} {align : Nat} (halign : IsPowerOfTwo align)
    (hordered : ∀ l ∈ lifetimes, l.first ≤ l.last) (plan : Plan) (capacity : Nat) :
    (do checkLifetimes lifetimes align; plan.within capacity) = plan.within capacity := by
  rw [checkLifetimes_of halign hordered]
  rfl

/-- A plan that fits is given to buffers that pass the common check. -/
theorem checked_within_of {lifetimes : List Lifetime} {align capacity : Nat} {plan : Plan}
    (halign : IsPowerOfTwo align) (hordered : ∀ l ∈ lifetimes, l.first ≤ l.last)
    (hpeak : plan.peak ≤ capacity) :
    (do checkLifetimes lifetimes align; plan.within capacity) = .ok plan :=
  (checked_within_eq halign hordered plan capacity).trans (Plan.within_of_le hpeak)

/-- Rounding up does not pass a multiple of the alignment. -/
theorem alignUp_le_of_dvd {align size bound : Nat} (halign : IsPowerOfTwo align)
    (hdvd : align ∣ bound) (hle : size ≤ bound) : alignUp size align ≤ bound := by
  obtain ⟨k, rfl⟩ := hdvd
  have hlt : size + align - 1 < align * (k + 1) := by
    have := halign.pos
    rw [Nat.mul_succ]
    omega
  rw [alignUp_of_isPowerOfTwo halign, Nat.mul_comm]
  exact Nat.mul_le_mul_left align (Nat.le_of_lt_succ (Nat.div_lt_of_lt_mul hlt))

theorem alignUp_zero {align : Nat} (halign : IsPowerOfTwo align) : alignUp 0 align = 0 :=
  Nat.eq_zero_of_le_zero (alignUp_le_of_dvd halign (Nat.dvd_zero align) (Nat.le_refl 0))

/-- Exactly the buffers that hold bytes have bytes reserved. -/
theorem alignUp_pos_iff {align size : Nat} (halign : IsPowerOfTwo align) :
    0 < alignUp size align ↔ 0 < size := by
  refine ⟨fun hpos => ?_, fun hpos => Nat.lt_of_lt_of_le hpos (le_alignUp halign size)⟩
  rcases Nat.eq_zero_or_pos size with rfl | hsize
  · rw [alignUp_zero halign] at hpos
    omega
  · exact hsize

/-- The bytes reserved for a placed buffer. -/
def Placement.reserved (q : Placement) (align : Nat) : ByteRange :=
  ⟨q.offset, alignUp q.lifetime.size align⟩

/-- A plan in which no end was cut off. -/
structure Plan.Exact (p : Plan) (lifetimes : List Lifetime) (align capacity : Nat) : Prop where
  lifetimes_eq : p.placements.map Placement.lifetime = lifetimes
  aligned : ∀ q ∈ p.placements, align ∣ q.offset
  peak_le : p.peak ≤ capacity
  reserved_le : ∀ q ∈ p.placements, (q.reserved align).stop ≤ p.peak
  apart : p.placements.Pairwise fun a b => 0 < a.lifetime.size → 0 < b.lifetime.size →
    a.lifetime.Overlaps b.lifetime → (a.reserved align).Apart (b.reserved align)

namespace Plan.Exact

variable {p : Plan} {lifetimes : List Lifetime} {align capacity : Nat}

theorem stop_le_reserved (halign : IsPowerOfTwo align) (q : Placement) :
    q.stop ≤ (q.reserved align).stop :=
  Nat.add_le_add_left (le_alignUp halign _) _

theorem stop_le (h : p.Exact lifetimes align capacity) (halign : IsPowerOfTwo align)
    {q : Placement} (hq : q ∈ p.placements) : q.stop ≤ p.peak :=
  Nat.le_trans (stop_le_reserved halign q) (h.reserved_le q hq)

theorem validate_eq_ok (h : p.Exact lifetimes align capacity) (halign : IsPowerOfTwo align) :
    p.validate = .ok () := by
  refine validatePlacements_eq_ok_iff.mpr ⟨fun q hq _ => h.stop_le halign hq, ?_⟩
  refine h.apart.imp fun {a b} hapart hclash => ?_
  obtain ⟨ha, hb, hover, hshare⟩ := hclash
  have ha' := le_alignUp halign a.lifetime.size
  have hb' := le_alignUp halign b.lifetime.size
  have := (hapart ha hb hover).le_or_le (by simp only [Placement.reserved]; omega)
    (by simp only [Placement.reserved]; omega)
  have := stop_le_reserved halign a
  have := stop_le_reserved halign b
  simp only [Placement.reserved] at *
  omega

end Plan.Exact

/-! ## First fit -/

namespace FirstFit

/-- In a block below the largest word every spot ends where the bytes reserved for it do. -/
theorem Arranged.reserved_stop {align : Nat} {spots : List Spot} (h : Arranged align spots)
    (hpeak : (spots.map (·.stop)).foldl max 0 < Word.max) {s : Spot} (hs : s ∈ spots) :
    (Placement.reserved ⟨s.lifetime, s.start⟩ align).stop = s.stop ∧ s.stop < Word.max := by
  have hle : s.stop ≤ (spots.map (·.stop)).foldl max 0 :=
    (le_foldl_max _ 0).2 _ (List.mem_map_of_mem hs)
  have heq := h.stop_eq s hs
  have hlt : Word.addSat s.start (alignUp s.lifetime.size align) < Word.max := by omega
  exact ⟨(heq.trans (Word.addSat_of_lt hlt)).symm, by omega⟩

theorem plan_exact {lifetimes : List Lifetime} {align capacity : Nat} (halign : IsPowerOfTwo align)
    (hpeak : (plan lifetimes align).peak ≤ capacity) (hcapacity : capacity < Word.max) :
    (plan lifetimes align).Exact lifetimes align capacity := by
  have arranged := spots_arranged halign lifetimes
  have hstop : ∀ s ∈ spots lifetimes align, _ := fun s hs =>
    arranged.reserved_stop (Nat.lt_of_le_of_lt hpeak hcapacity) hs
  have hspot : ∀ q ∈ (plan lifetimes align).placements,
      ∃ s ∈ spots lifetimes align, q = ⟨s.lifetime, s.start⟩ := by
    intro q hq
    obtain ⟨i, hi⟩ := List.mem_iff_getElem?.mp hq
    obtain ⟨s, hs, -, rfl⟩ := exists_spot_of_getElem? hi
    exact ⟨s, hs, rfl⟩
  refine ⟨(plan_kept halign hpeak).lifetimes_eq, fun q hq => ?_, hpeak, fun q hq => ?_, ?_⟩
  · obtain ⟨s, hs, rfl⟩ := hspot q hq
    obtain ⟨heq, hlt⟩ := hstop s hs
    simp only [Placement.reserved, ByteRange.stop] at heq
    exact arranged.aligned s hs (by omega)
  · obtain ⟨s, hs, rfl⟩ := hspot q hq
    rw [(hstop s hs).1]
    exact (le_foldl_max _ 0).2 _ (List.mem_map_of_mem hs)
  · rw [List.pairwise_iff_getElem]
    intro i j hi hj hij
    obtain ⟨s, hs, hsi, hq⟩ := exists_spot_of_getElem? (List.getElem?_eq_getElem hi)
    obtain ⟨t, ht, htj, hq'⟩ := exists_spot_of_getElem? (List.getElem?_eq_getElem hj)
    rw [hq, hq']
    intro hpos hpos' hover
    have hsstop := (hstop s hs).1
    have htstop := (hstop t ht).1
    -- A buffer that holds bytes has bytes reserved, so its spot is not empty.
    have filled : ∀ u : Spot, 0 < u.lifetime.size →
        u.start < (Placement.reserved ⟨u.lifetime, u.start⟩ align).stop := fun u hu =>
      Nat.lt_add_of_pos_right (Nat.lt_of_lt_of_le hu (le_alignUp halign _))
    rcases arranged.apart s hs t ht (by omega) hover (hsstop ▸ filled s hpos)
      (htstop ▸ filled t hpos') with hle | hle
    · exact ByteRange.apart_of_stop_le (hsstop ▸ hle)
    · exact (ByteRange.apart_of_stop_le (htstop ▸ hle)).symm

theorem peak_le_max {align : Nat} (halign : IsPowerOfTwo align) (lifetimes : List Lifetime) :
    (plan lifetimes align).peak ≤ Word.max := by
  refine foldl_max_le (Nat.zero_le _) fun stop hstop => ?_
  obtain ⟨s, hs, rfl⟩ := List.mem_map.mp hstop
  rw [(spots_arranged halign lifetimes).stop_eq s hs]
  exact Nat.min_le_right ..

end FirstFit

/-! ## Linear -/

namespace Linear

theorem plan_exact {lifetimes : List Lifetime} {align capacity : Nat} (halign : IsPowerOfTwo align)
    (hpeak : (plan lifetimes align).peak ≤ capacity) (hcapacity : capacity < Word.max) :
    (plan lifetimes align).Exact lifetimes align capacity := by
  obtain ⟨-, hbounds, haligned, hapart⟩ :=
    layOut_laidOut halign lifetimes (Nat.zero_le _) fun _ => Nat.dvd_zero align
  have hlt : (plan lifetimes align).peak < Word.max := Nat.lt_of_le_of_lt hpeak hcapacity
  have hstop : ∀ q ∈ (plan lifetimes align).placements,
      (q.reserved align).stop = Word.addSat q.offset (alignUp q.lifetime.size align) := fun q hq =>
    (Word.addSat_of_lt (Nat.lt_of_le_of_lt (hbounds q hq).2 hlt)).symm
  have hle : ∀ q ∈ (plan lifetimes align).placements,
      (q.reserved align).stop ≤ (plan lifetimes align).peak := by
    intro q hq
    rw [hstop q hq]
    exact (hbounds q hq).2
  refine ⟨map_lifetime_layOut .., fun q hq => haligned q hq ?_, hpeak, hle, ?_⟩
  · have := hle q hq
    simp only [ByteRange.stop, Placement.reserved] at this
    omega
  · refine hapart.imp_of_mem fun {a b} ha _ hab _ _ _ => ?_
    exact ByteRange.apart_of_stop_le (Nat.le_trans (Nat.le_of_eq (hstop a ha)) hab)

theorem layOut_stop_le {align : Nat} (lifetimes : List Lifetime) {cursor : Nat}
    (h : cursor ≤ Word.max) : (layOut align lifetimes cursor).2 ≤ Word.max := by
  induction lifetimes generalizing cursor with
  | nil => exact h
  | cons l rest ih => exact ih (Nat.min_le_right ..)

end Linear

/-! ## Both strategies -/

namespace Strategy

theorem place_exact {s : Strategy} (hs : s = firstFit ∨ s = linear) {lifetimes : List Lifetime}
    {align capacity : Nat} (hcapacity : capacity < Word.max) {p : Plan}
    (h : s.place lifetimes align capacity = .ok p) :
    IsPowerOfTwo align ∧ (∀ l ∈ lifetimes, l.first ≤ l.last) ∧
      p.Exact lifetimes align capacity := by
  rcases hs with rfl | rfl
  · obtain ⟨halign, hordered, rfl, hpeak⟩ := checked_within_ok h
    exact ⟨halign, hordered, FirstFit.plan_exact halign hpeak hcapacity⟩
  · obtain ⟨halign, hordered, rfl, hpeak⟩ := checked_within_ok h
    exact ⟨halign, hordered, Linear.plan_exact halign hpeak hcapacity⟩

/-- A plan for a capacity below the largest word places every buffer once and in the order of the
input, at a multiple of the alignment; every buffer ends within a word, and in a block that is no
larger than the capacity. Two buffers that hold bytes and that some operator finds both alive share
no byte, also when each is rounded up to the alignment. So the plan passes its own validation.

Sizes and alignments have no bound here. Where they are words, sizes up to `Word.maxSigned` and
alignments up to 2 ^ 62 are what keeps the rounding from overflowing. -/
theorem place_sound {s : Strategy} (hs : s = firstFit ∨ s = linear) {lifetimes : List Lifetime}
    {align capacity : Nat} (hcapacity : capacity < Word.max) {p : Plan}
    (h : s.place lifetimes align capacity = .ok p) :
    p.placements.map Placement.lifetime = lifetimes ∧
      (∀ q ∈ p.placements, align ∣ q.offset ∧ q.offset + q.lifetime.size ≤ Word.max ∧
        q.stop ≤ p.peak) ∧
      p.peak ≤ capacity ∧
      (p.placements.Pairwise fun a b => 0 < a.lifetime.size → 0 < b.lifetime.size →
        (∃ k, a.lifetime.AliveAt k ∧ b.lifetime.AliveAt k) →
          (a.reserved align).Apart (b.reserved align)) ∧
      p.validate = .ok () := by
  obtain ⟨halign, -, hexact⟩ := place_exact hs hcapacity h
  refine ⟨hexact.lifetimes_eq, fun q hq => ?_, hexact.peak_le, ?_, hexact.validate_eq_ok halign⟩
  · have hstop := hexact.stop_le halign hq
    have hpeak := hexact.peak_le
    refine ⟨hexact.aligned q hq, ?_, hstop⟩
    simp only [Placement.stop] at hstop
    omega
  · refine hexact.apart.imp fun {a b} hapart ha hb halive => hapart ha hb ?_
    obtain ⟨k, hka, hkb⟩ := halive
    exact ⟨Nat.le_trans hka.1 hkb.2, Nat.le_trans hkb.1 hka.2⟩

def threeBuffers : List Lifetime :=
  [⟨.tensor 0, 0, 0, 20⟩, ⟨.tensor 1, 0, 1, 9⟩, ⟨.tensor 2, 1, 1, 7⟩]

/-- A block of 48 bytes is enough for them, since the third one takes bytes of the first. -/
theorem place_sound_of_three :
    ∃ p, firstFit.place threeBuffers 16 48 = .ok p ∧
      p.placements.map Placement.offset = [0, 32, 0] ∧ p.validate = .ok () := by
  have hspots : FirstFit.spots threeBuffers 16 = [⟨0, ⟨.tensor 0, 0, 0, 20⟩, 0, 32⟩,
      ⟨2, ⟨.tensor 2, 1, 1, 7⟩, 0, 16⟩, ⟨1, ⟨.tensor 1, 0, 1, 9⟩, 32, 48⟩] := by
    rw [FirstFit.spots, List.mergeSort_of_pairwise (by decide)]
    decide +kernel
  have hplace : firstFit.place threeBuffers 16 48 = .ok (FirstFit.plan threeBuffers 16) := by
    simp only [firstFit, FirstFit.place, FirstFit.plan, hspots]
    rfl
  obtain ⟨-, -, -, -, hvalid⟩ := place_sound (.inl rfl) (by decide) hplace
  refine ⟨_, hplace, ?_, hvalid⟩
  simp only [FirstFit.plan, hspots]
  rfl

/-! ## What the capacity decides -/

/-- The capacity decides only whether a plan is too large: without a limit the strategies plan the same
way, in a block of at most the largest word. -/
theorem place_eq {s : Strategy} (hs : s = firstFit ∨ s = linear) (lifetimes : List Lifetime)
    (align capacity : Nat) : s.place lifetimes align capacity =
      (s.place lifetimes align Word.max).bind fun p => p.within capacity := by
  have capped : ∀ plan : Plan, (IsPowerOfTwo align → plan.peak ≤ Word.max) →
      (do checkLifetimes lifetimes align; plan.within capacity) =
        (do checkLifetimes lifetimes align; plan.within Word.max : Except PlanError Plan).bind
          fun p => p.within capacity := by
    intro plan hpeak
    cases hcheck : checkLifetimes lifetimes align with
    | error e => rfl
    | ok =>
      change plan.within capacity = (plan.within Word.max).bind _
      rw [Plan.within_of_le (hpeak (checkLifetimes_ok hcheck).1)]
      rfl
  rcases hs with rfl | rfl
  · exact capped _ fun halign => FirstFit.peak_le_max halign lifetimes
  · exact capped _ fun _ => Linear.layOut_stop_le lifetimes (Nat.zero_le _)

theorem place_eq_ok_iff {s : Strategy} (hs : s = firstFit ∨ s = linear)
    {lifetimes : List Lifetime} {align capacity : Nat} {p : Plan} :
    s.place lifetimes align capacity = .ok p ↔
      s.place lifetimes align Word.max = .ok p ∧ p.peak ≤ capacity := by
  rw [place_eq hs lifetimes align capacity]
  cases s.place lifetimes align Word.max with
  | error e => exact iff_of_false nofun fun h => nomatch h.1
  | ok q =>
    simp only [Except.bind, Plan.within, Except.ok.injEq]
    split
    · rename_i hlarge
      refine iff_of_false nofun ?_
      rintro ⟨rfl, hle⟩
      omega
    · rename_i hfits
      rw [Except.ok.injEq]
      refine ⟨?_, And.left⟩
      rintro rfl
      exact ⟨rfl, Nat.le_of_not_lt hfits⟩

/-- A strategy for which the capacity is a limit and nothing more: it makes the plan that it would make
without a limit, unless that plan is too large. -/
structure Uniform (s : Strategy) : Prop where
  sound : s.Sound
  place_iff : ∀ lifetimes align capacity p, s.place lifetimes align capacity = .ok p ↔
    s.place lifetimes align Word.max = .ok p ∧ p.peak ≤ capacity

theorem firstFit_uniform : firstFit.Uniform :=
  ⟨firstFit_sound, fun _ _ _ _ => place_eq_ok_iff (.inl rfl)⟩

theorem linear_uniform : linear.Uniform :=
  ⟨linear_sound, fun _ _ _ _ => place_eq_ok_iff (.inr rfl)⟩

/-- So are all strategies that have a name. -/
theorem uniform_of_ofName {name : String} {s : Strategy} (h : ofName name = .ok s) : s.Uniform := by
  unfold ofName at h
  split at h
  · cases h
    exact firstFit_uniform
  · cases h
    exact firstFit_uniform
  · cases h
    exact linear_uniform
  · cases h

end Strategy

end TensorArena
