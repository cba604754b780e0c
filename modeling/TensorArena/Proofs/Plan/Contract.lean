import TensorArena.Plan.Strategy

/-!
# What strategies promise

A strategy gives every buffer an offset inside one block so that buffers that are alive together
never share bytes, at multiples of the alignment, in a block no larger than the capacity. `Kept`
states this for one plan, and a strategy is `Sound` when all its plans keep it.

Ends are cut off at the largest word, so the promise is for buffers that end below it. A block that
is smaller than the largest word holds no others.
-/

namespace TensorArena

/-- The plan keeps the promise for the lifetimes it was asked to place. -/
structure Plan.Kept (p : Plan) (lifetimes : List Lifetime) (align capacity : Nat) : Prop where
  lifetimes_eq : p.placements.map Placement.lifetime = lifetimes
  peak_le : p.peak ≤ capacity
  aligned : ∀ q ∈ p.placements, q.stop < Word.max → align ∣ q.offset
  stop_le : ∀ q ∈ p.placements, q.stop < Word.max → q.stop ≤ p.peak
  apart : p.placements.Pairwise fun a b => a.stop < Word.max → b.stop < Word.max → ¬ a.Clashes b

/-- A strategy that keeps its promise in every plan. -/
def Strategy.Sound (s : Strategy) : Prop :=
  ∀ lifetimes align capacity p, s.place lifetimes align capacity = .ok p →
    p.Kept lifetimes align capacity

/-! ## Common steps of the strategies -/

theorem Word.addSat_of_lt {a b : Nat} (h : Word.addSat a b < Word.max) :
    Word.addSat a b = a + b := by
  simp only [Word.addSat] at h ⊢
  omega

theorem Word.le_addSat {a b c : Nat} (h : a + b ≤ a + c) (hlt : a + b < Word.max) :
    a + b ≤ Word.addSat a c := by
  simp only [Word.addSat]
  omega

theorem Lifetime.Overlaps.symm {a b : Lifetime} (h : a.Overlaps b) : b.Overlaps a :=
  ⟨h.2, h.1⟩

theorem Lifetime.overlaps_of_aliveAt {a b : Lifetime} {k : Nat} (ha : a.AliveAt k)
    (hb : b.AliveAt k) : a.Overlaps b :=
  ⟨Nat.le_trans ha.1 hb.2, Nat.le_trans hb.1 ha.2⟩

theorem Placement.Clashes.symm {a b : Placement} (h : a.Clashes b) : b.Clashes a :=
  ⟨h.2.1, h.1, h.2.2.1.symm, fun hor => h.2.2.2 hor.symm⟩

theorem le_foldl_max (ns : List Nat) (b : Nat) :
    b ≤ ns.foldl max b ∧ ∀ n ∈ ns, n ≤ ns.foldl max b := by
  induction ns generalizing b with
  | nil => exact ⟨Nat.le_refl _, nofun⟩
  | cons n rest ih =>
    obtain ⟨hb, hrest⟩ := ih (max b n)
    refine ⟨by rw [List.foldl_cons]; omega, fun m hm => ?_⟩
    rw [List.foldl_cons]
    rcases List.mem_cons.mp hm with rfl | hm
    · omega
    · exact hrest m hm

/-- What the common check accepts. -/
theorem checkLifetimes_ok {lifetimes : List Lifetime} {align : Nat}
    (h : checkLifetimes lifetimes align = .ok ()) :
    IsPowerOfTwo align ∧ ∀ l ∈ lifetimes, l.first ≤ l.last := by
  unfold checkLifetimes at h
  split at h
  · cases h
  · rename_i hp
    refine ⟨Decidable.not_not.mp hp, fun l hl => ?_⟩
    split at h
    · cases h
    · rename_i hnone
      have := List.find?_eq_none.mp hnone l hl
      simp only [decide_eq_true_eq] at this
      omega

/-- Both strategies check their input, make a plan, and hold it against the capacity. -/
theorem checked_within_ok {lifetimes : List Lifetime} {align capacity : Nat} {plan p : Plan}
    (h : (do checkLifetimes lifetimes align; plan.within capacity) = .ok p) :
    IsPowerOfTwo align ∧ (∀ l ∈ lifetimes, l.first ≤ l.last) ∧ p = plan ∧
      plan.peak ≤ capacity := by
  cases hc : checkLifetimes lifetimes align with
  | error e =>
    rw [hc] at h
    cases h
  | ok u =>
    rw [hc] at h
    change plan.within capacity = .ok p at h
    obtain ⟨hp, hl⟩ := checkLifetimes_ok hc
    unfold Plan.within at h
    split at h
    · cases h
    · rename_i hfit
      cases h
      exact ⟨hp, hl, rfl, Nat.le_of_not_lt hfit⟩

end TensorArena
