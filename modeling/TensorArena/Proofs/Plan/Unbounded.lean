import TensorArena.Proofs.Plan.Bounds

/-!
# Plans without a largest word

The strategies cut off all sums at the largest word. `planBy` is the same planning with the sum left
open: by `Word.addSat` it is the plan that is made, by plain addition the plan in unbounded
arithmetic. A sum that is cut off leaves its mark, since the block then ends at the largest word; as
long as none is, the two plans are one, for a start that a sum is held against lies before the end
of bytes that are there.

So a capacity below the largest word decides as it would in unbounded arithmetic. At the largest
word itself it does not: an end that was cut off is no larger, and the plan passes with a block that
is too small for it.
-/

namespace TensorArena

/-- What a plan with sums cut off has to do with the one in unbounded arithmetic. -/
inductive Plan.CutOff (plan exact : Plan) : Prop
  | fits (hpeak : exact.peak ≤ Word.max) (heq : plan = exact)
  | above (hpeak : Word.max < exact.peak) (hcut : plan.peak = Word.max)

/-! ## First fit -/

namespace FirstFit

/-- The search for a gap, with any sum for the end of the reserved bytes. -/
def gapBy (add : Nat → Nat → Nat) (l : Lifetime) (reserved : Nat) :
    List Spot → (offset : Nat) → Nat
  | [], offset => offset
  | s :: rest, offset =>
    if ¬ s.lifetime.Overlaps l ∨ s.stop = s.start then gapBy add l reserved rest offset
    else if add offset reserved ≤ s.start then offset
    else gapBy add l reserved rest (max offset s.stop)

def putBy (add : Nat → Nat → Nat) (align : Nat) (placed : List Spot) (entry : Lifetime × Nat) :
    List Spot :=
  let (l, index) := entry
  let reserved := alignUp l.size align
  let start := if 0 < reserved then gapBy add l reserved placed 0 else 0
  insert ⟨index, l, start, add start reserved⟩ placed

def spotsBy (add : Nat → Nat → Nat) (lifetimes : List Lifetime) (align : Nat) : List Spot :=
  (entries lifetimes).foldl (putBy add align) []

def planBy (add : Nat → Nat → Nat) (lifetimes : List Lifetime) (align : Nat) : Plan :=
  let placed := spotsBy add lifetimes align
  { strategy := name
    placements := lifetimes.zipIdx.map fun (l, index) => ⟨l, offsetAt placed index⟩
    peak := (placed.map (·.stop)).foldl max 0 }

theorem gapBy_addSat (l : Lifetime) (reserved : Nat) (spots : List Spot) (offset : Nat) :
    gapBy Word.addSat l reserved spots offset = gap l reserved spots offset := by
  induction spots generalizing offset with
  | nil => rfl
  | cons s rest ih => simp only [gapBy, gap, ih]

theorem planBy_addSat (lifetimes : List Lifetime) (align : Nat) :
    planBy Word.addSat lifetimes align = plan lifetimes align := by
  have hput : putBy Word.addSat align = put align := by
    funext placed entry
    simp only [putBy, put, gapBy_addSat]
  have hspots : spotsBy Word.addSat lifetimes align = spots lifetimes align := by
    rw [spotsBy, hput]
    rfl
  rw [planBy, hspots]
  rfl

/-- A spot that starts no later than it ends, and ends within a word. -/
structure Spot.Whole (s : Spot) : Prop where
  start_le : s.start ≤ s.stop
  stop_le : s.stop ≤ Word.max

section

variable {align : Nat} {spots : List Spot}

/-- The search finds the same gap: it holds sums only against starts below the largest word. -/
theorem gapBy_add (l : Lifetime) (reserved : Nat) (hwhole : ∀ s ∈ spots, s.Whole) (offset : Nat) :
    gapBy (· + ·) l reserved spots offset = gapBy Word.addSat l reserved spots offset := by
  induction spots generalizing offset with
  | nil => rfl
  | cons s rest ih =>
    obtain ⟨⟨hstart, hstop⟩, hrest⟩ := List.forall_mem_cons.mp hwhole
    unfold gapBy
    split
    · exact ih hrest offset
    · rename_i hmet
      have hlt : s.start < Word.max := by omega
      have hsame : Word.addSat offset reserved ≤ s.start ↔ offset + reserved ≤ s.start := by
        simp only [Word.addSat]
        omega
      simp only [hsame, ih hrest]

theorem mem_foldl_putBy (add : Nat → Nat → Nat) (es : List (Lifetime × Nat)) {s : Spot}
    (hs : s ∈ spots) : s ∈ es.foldl (putBy add align) spots := by
  induction es generalizing spots with
  | nil => exact hs
  | cons e rest ih => exact ih (mem_insert.mpr (.inr hs))

/-- Two runs from the same spots place them alike, or there is an end above the largest word in the
one without a limit and one at the largest word in the other. -/
theorem foldl_putBy_cases (align : Nat) (es : List (Lifetime × Nat))
    (hwhole : ∀ s ∈ spots, s.Whole) :
    ((∀ s ∈ es.foldl (putBy (· + ·) align) spots, s.stop ≤ Word.max) ∧
        es.foldl (putBy Word.addSat align) spots = es.foldl (putBy (· + ·) align) spots) ∨
      (∃ s ∈ es.foldl (putBy (· + ·) align) spots, Word.max < s.stop) ∧
        ∃ s ∈ es.foldl (putBy Word.addSat align) spots, s.stop = Word.max := by
  induction es generalizing spots with
  | nil => exact .inl ⟨fun s hs => (hwhole s hs).stop_le, rfl⟩
  | cons e rest ih =>
    obtain ⟨l, index⟩ := e
    rw [List.foldl_cons, List.foldl_cons]
    generalize hstart : (if 0 < alignUp l.size align then
      gapBy Word.addSat l (alignUp l.size align) spots 0 else 0) = start
    have hcut : putBy Word.addSat align spots (l, index) =
        insert ⟨index, l, start, Word.addSat start (alignUp l.size align)⟩ spots := by
      simp only [putBy, hstart]
    have hfull : putBy (· + ·) align spots (l, index) =
        insert ⟨index, l, start, start + alignUp l.size align⟩ spots := by
      simp only [putBy, gapBy_add l _ hwhole, hstart]
    by_cases hfits : start + alignUp l.size align ≤ Word.max
    · rw [hcut, hfull, Word.addSat, Nat.min_eq_left hfits]
      refine ih fun s hs => ?_
      rcases mem_insert.mp hs with rfl | hs
      · exact ⟨Nat.le_add_right .., hfits⟩
      · exact hwhole s hs
    · have hlarge : ⟨index, l, start, start + alignUp l.size align⟩ ∈
          putBy (· + ·) align spots (l, index) := hfull ▸ mem_insert.mpr (.inl rfl)
      have hmax : ⟨index, l, start, Word.addSat start (alignUp l.size align)⟩ ∈
          putBy Word.addSat align spots (l, index) := hcut ▸ mem_insert.mpr (.inl rfl)
      exact .inr ⟨⟨_, mem_foldl_putBy _ rest hlarge, Nat.lt_of_not_le hfits⟩,
        ⟨_, mem_foldl_putBy _ rest hmax, Nat.min_eq_right (Nat.le_of_not_le hfits)⟩⟩

end

theorem plan_cutOff {align : Nat} (halign : IsPowerOfTwo align) (lifetimes : List Lifetime) :
    (plan lifetimes align).CutOff (planBy (· + ·) lifetimes align) := by
  have hpeak : ∀ add, ∀ s ∈ spotsBy add lifetimes align,
      s.stop ≤ (planBy add lifetimes align).peak := fun add s hs =>
    (le_foldl_max _ 0).2 _ (List.mem_map_of_mem hs)
  have hnone : ∀ s ∈ ([] : List Spot), s.Whole := nofun
  rcases foldl_putBy_cases align (entries lifetimes) hnone with
    ⟨hstop, hsame⟩ | ⟨⟨s, hs, hlarge⟩, t, ht, hcut⟩
  · refine .fits (foldl_max_le (Nat.zero_le _) fun stop hmem => ?_) ?_
    · obtain ⟨s, hs, rfl⟩ := List.mem_map.mp hmem
      exact hstop s hs
    · have hspots : spotsBy Word.addSat lifetimes align = spotsBy (· + ·) lifetimes align := hsame
      rw [← planBy_addSat, planBy, hspots]
      rfl
  · refine .above (Nat.lt_of_lt_of_le hlarge (hpeak _ s hs)) ?_
    refine Nat.le_antisymm (peak_le_max halign lifetimes) ?_
    rw [← hcut, ← planBy_addSat]
    exact hpeak _ t ht

end FirstFit

/-! ## Linear -/

namespace Linear

/-- Lays buffers out with any sum for the next cursor. -/
def layOutBy (add : Nat → Nat → Nat) (align : Nat) :
    List Lifetime → (cursor : Nat) → List Placement × Nat
  | [], cursor => ([], cursor)
  | l :: rest, cursor =>
    let (placements, stop) := layOutBy add align rest (add cursor (alignUp l.size align))
    (⟨l, cursor⟩ :: placements, stop)

def planBy (add : Nat → Nat → Nat) (lifetimes : List Lifetime) (align : Nat) : Plan :=
  let (placements, peak) := layOutBy add align lifetimes 0
  { strategy := name, placements, peak }

theorem layOutBy_addSat (align : Nat) (lifetimes : List Lifetime) (cursor : Nat) :
    layOutBy Word.addSat align lifetimes cursor = layOut align lifetimes cursor := by
  induction lifetimes generalizing cursor with
  | nil => rfl
  | cons l rest ih => simp only [layOutBy, layOut, ih]

theorem planBy_addSat (lifetimes : List Lifetime) (align : Nat) :
    planBy Word.addSat lifetimes align = plan lifetimes align := by
  rw [planBy, layOutBy_addSat]
  rfl

theorem layOutBy_add_stop (align : Nat) (lifetimes : List Lifetime) (cursor : Nat) :
    (layOutBy (· + ·) align lifetimes cursor).2 = cursor + reservedBytes lifetimes align := by
  induction lifetimes generalizing cursor with
  | nil => rfl
  | cons l rest ih => rw [reservedBytes_cons, ← Nat.add_assoc, ← ih, layOutBy]

theorem layOutBy_add {align : Nat} {lifetimes : List Lifetime} {cursor : Nat}
    (hfits : cursor + reservedBytes lifetimes align ≤ Word.max) :
    layOutBy Word.addSat align lifetimes cursor = layOutBy (· + ·) align lifetimes cursor := by
  induction lifetimes generalizing cursor with
  | nil => rfl
  | cons l rest ih =>
    rw [reservedBytes_cons, ← Nat.add_assoc] at hfits
    have hnext : Word.addSat cursor (alignUp l.size align) = cursor + alignUp l.size align :=
      Nat.min_eq_left (Nat.le_trans (Nat.le_add_right ..) hfits)
    simp only [layOutBy, hnext, ih hfits]

theorem plan_cutOff (lifetimes : List Lifetime) (align : Nat) :
    (plan lifetimes align).CutOff (planBy (· + ·) lifetimes align) := by
  have hpeak : (planBy (· + ·) lifetimes align).peak = reservedBytes lifetimes align :=
    (layOutBy_add_stop align lifetimes 0).trans (Nat.zero_add _)
  by_cases hfits : reservedBytes lifetimes align ≤ Word.max
  · refine .fits (hpeak ▸ hfits) ?_
    rw [← planBy_addSat, planBy, layOutBy_add (by rwa [Nat.zero_add])]
    rfl
  · refine .above (hpeak ▸ Nat.lt_of_not_le hfits) ?_
    rw [peak_eq, Word.addSat, Nat.zero_add]
    exact Nat.min_eq_right (Nat.le_of_not_le hfits)

end Linear

/-! ## The capacity check -/

namespace Strategy

/-- What a strategy would plan if there were no largest word. -/
inductive Unbounded : Strategy → (List Lifetime → (align : Nat) → Plan) → Prop
  | firstFit : Unbounded firstFit (FirstFit.planBy (· + ·))
  | linear : Unbounded linear (Linear.planBy (· + ·))

theorem Unbounded.place_eq {s : Strategy} {exact : List Lifetime → Nat → Plan}
    (hs : s.Unbounded exact) {lifetimes : List Lifetime} {align : Nat}
    (halign : IsPowerOfTwo align) (hordered : ∀ l ∈ lifetimes, l.first ≤ l.last) :
    ∃ plan : Plan, plan.strategy = s.name ∧ plan.CutOff (exact lifetimes align) ∧
      ∀ capacity, s.place lifetimes align capacity = plan.within capacity := by
  cases hs with
  | firstFit =>
    exact ⟨_, rfl, FirstFit.plan_cutOff halign lifetimes, checked_within_eq halign hordered _⟩
  | linear =>
    exact ⟨_, rfl, Linear.plan_cutOff lifetimes align, checked_within_eq halign hordered _⟩

/-- Below the largest word the capacity decides as in unbounded arithmetic: when the block fits, the
plan is the one made there, and when it does not, it is refused. At the largest word no plan is
refused, and one whose block is larger than that gets a block of the largest word. -/
theorem place_of_unbounded {s : Strategy} {exact : List Lifetime → Nat → Plan}
    (hs : s.Unbounded exact) {lifetimes : List Lifetime} {align capacity : Nat}
    (halign : IsPowerOfTwo align) (hordered : ∀ l ∈ lifetimes, l.first ≤ l.last)
    (hcapacity : capacity ≤ Word.max) :
    ((exact lifetimes align).peak ≤ capacity →
      s.place lifetimes align capacity = .ok (exact lifetimes align)) ∧
    (capacity < (exact lifetimes align).peak → capacity < Word.max →
      s.place lifetimes align capacity =
        .error (.exceedsCapacity s.name (min (exact lifetimes align).peak Word.max) capacity)) ∧
    (capacity < (exact lifetimes align).peak → capacity = Word.max →
      ∃ p, s.place lifetimes align capacity = .ok p ∧ p.peak = Word.max) := by
  obtain ⟨plan, hname, hcut, hplace⟩ := hs.place_eq halign hordered
  rw [hplace, Plan.within]
  cases hcut with
  | fits hpeak heq =>
    subst heq
    rw [Nat.min_eq_left hpeak, hname]
    refine ⟨fun hle => if_neg (Nat.not_lt_of_le hle), fun hlt _ => if_pos hlt, fun hlt heq => ?_⟩
    omega
  | above hpeak hcut =>
    rw [Nat.min_eq_right (Nat.le_of_lt hpeak), hcut, hname]
    refine ⟨fun hle => ?_, fun _ hlt => if_pos hlt, fun _ heq => ?_⟩
    · omega
    · exact ⟨plan, if_neg (by omega), hcut⟩

/-- Two buffers of the largest size there is, and a byte. -/
def wholeWord : List Lifetime :=
  [⟨.tensor 0, 0, 0, Word.maxSigned⟩, ⟨.tensor 1, 1, 1, Word.maxSigned⟩, ⟨.tensor 2, 2, 2, 1⟩]

/-- Laid out without gaps they take exactly the largest word, which is enough, and one byte less is
not. -/
theorem place_of_unbounded_of_wholeWord :
    (Linear.planBy (· + ·) wholeWord 1).peak = Word.max ∧
      linear.place wholeWord 1 Word.max = .ok (Linear.planBy (· + ·) wholeWord 1) ∧
      linear.place wholeWord 1 (Word.max - 1) =
        .error (.exceedsCapacity "linear" Word.max (Word.max - 1)) := by
  have hpeak : (Linear.planBy (· + ·) wholeWord 1).peak = Word.max := by decide
  have hfits : (Linear.planBy (· + ·) wholeWord 1).peak ≤ Word.max →
      linear.place wholeWord 1 Word.max = .ok (Linear.planBy (· + ·) wholeWord 1) :=
    (place_of_unbounded .linear (by decide) (by decide) (by decide)).1
  have hlarge : Word.max - 1 < (Linear.planBy (· + ·) wholeWord 1).peak →
      Word.max - 1 < Word.max →
      linear.place wholeWord 1 (Word.max - 1) = .error (.exceedsCapacity "linear"
        (min (Linear.planBy (· + ·) wholeWord 1).peak Word.max) (Word.max - 1)) :=
    (place_of_unbounded .linear (by decide) (by decide) (by decide)).2.1
  rw [hpeak] at hfits hlarge
  exact ⟨hpeak, hfits (Nat.le_refl _), hlarge (by decide) (by decide)⟩

/-- Two buffers of the largest size there is, and one without bytes. -/
def twoHalves : List Lifetime :=
  [⟨.tensor 0, 0, 0, Word.maxSigned⟩, ⟨.tensor 1, 1, 1, Word.maxSigned⟩, ⟨.tensor 2, 2, 2, 0⟩]

/-- Laid out at multiples of 16 they take one byte more than the largest word, and get a plan for
that capacity nevertheless; in it the last offset is cut off, to no multiple of 16. -/
theorem linear_passes_cut_off :
    Word.max < (Linear.planBy (· + ·) twoHalves 16).peak ∧
      ∃ p, linear.place twoHalves 16 Word.max = .ok p ∧ p.peak = Word.max ∧
        p.placements.map Placement.offset = [0, Word.maxSigned + 1, Word.max] ∧
        ¬ 16 ∣ Word.max := by
  refine ⟨by decide, Linear.plan twoHalves 16, rfl, by decide, by decide, by decide⟩

end Strategy

end TensorArena
