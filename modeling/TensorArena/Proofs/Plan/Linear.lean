import TensorArena.Proofs.Plan.Contract

/-!
# Linear placement keeps its promise

The cursor only grows, and every buffer ends, rounded up, where the next one starts.
-/

namespace TensorArena

namespace Linear

/-- What one pass over the lifetimes gives, seen from the cursor it starts at. -/
structure LaidOut (align cursor : Nat) (placements : List Placement) (stop : Nat) : Prop where
  cursor_le : cursor ≤ stop
  bounds : ∀ q ∈ placements, cursor ≤ q.offset ∧
    Word.addSat q.offset (alignUp q.lifetime.size align) ≤ stop
  aligned : ∀ q ∈ placements, q.offset < Word.max → align ∣ q.offset
  apart : placements.Pairwise fun a b =>
    Word.addSat a.offset (alignUp a.lifetime.size align) ≤ b.offset

theorem layOut_laidOut {align : Nat} (hp : IsPowerOfTwo align) (lifetimes : List Lifetime)
    {cursor : Nat} (hle : cursor ≤ Word.max) (hc : cursor < Word.max → align ∣ cursor) :
    LaidOut align cursor (layOut align lifetimes cursor).1 (layOut align lifetimes cursor).2 := by
  induction lifetimes generalizing cursor with
  | nil => exact ⟨Nat.le_refl _, nofun, nofun, .nil⟩
  | cons l rest ih =>
    have hgrow : cursor ≤ Word.addSat cursor (alignUp l.size align) := by
      simp only [Word.addSat]
      omega
    have hnext : Word.addSat cursor (alignUp l.size align) < Word.max →
        align ∣ Word.addSat cursor (alignUp l.size align) := by
      intro hlt
      rw [Word.addSat_of_lt hlt]
      exact Nat.dvd_add (hc (by omega)) (dvd_alignUp hp _)
    obtain ⟨h₁, h₂, h₃, h₄⟩ := ih (Nat.min_le_right ..) hnext
    simp only [layOut]
    refine ⟨Nat.le_trans hgrow h₁, fun q hq => ?_, fun q hq hlt => ?_, ?_⟩
    · rcases List.mem_cons.mp hq with rfl | hq
      · exact ⟨Nat.le_refl _, h₁⟩
      · exact ⟨Nat.le_trans hgrow (h₂ q hq).1, (h₂ q hq).2⟩
    · rcases List.mem_cons.mp hq with rfl | hq
      · exact hc hlt
      · exact h₃ q hq hlt
    · exact List.pairwise_cons.mpr ⟨fun q hq => (h₂ q hq).1, h₄⟩

theorem map_lifetime_layOut (align : Nat) (lifetimes : List Lifetime) (cursor : Nat) :
    (layOut align lifetimes cursor).1.map Placement.lifetime = lifetimes := by
  induction lifetimes generalizing cursor with
  | nil => rfl
  | cons l rest ih => simp only [layOut, List.map_cons, ih]

theorem stop_le_of_stop_lt {align : Nat} (hp : IsPowerOfTwo align) {q : Placement}
    (hlt : q.stop < Word.max) : q.stop ≤ Word.addSat q.offset (alignUp q.lifetime.size align) :=
  Word.le_addSat (Nat.add_le_add_left (le_alignUp hp _) _) hlt

/-- No two buffers share bytes, alive together or not. -/
theorem plan_ordered (lifetimes : List Lifetime) {align : Nat} (hp : IsPowerOfTwo align) :
    (plan lifetimes align).placements.Pairwise fun a b => a.stop < Word.max → a.stop ≤ b.offset := by
  obtain ⟨-, -, -, hapart⟩ := layOut_laidOut hp lifetimes (Nat.zero_le _) fun _ => Nat.dvd_zero align
  refine hapart.imp ?_
  intro a b hab hlt
  exact Nat.le_trans (stop_le_of_stop_lt hp hlt) hab

theorem plan_kept {lifetimes : List Lifetime} {align capacity : Nat} (hp : IsPowerOfTwo align)
    (hpeak : (plan lifetimes align).peak ≤ capacity) :
    (plan lifetimes align).Kept lifetimes align capacity := by
  obtain ⟨-, hbounds, haligned, -⟩ :=
    layOut_laidOut hp lifetimes (Nat.zero_le _) fun _ => Nat.dvd_zero align
  refine ⟨map_lifetime_layOut .., hpeak, fun q hq hlt => ?_, fun q hq hlt => ?_, ?_⟩
  · simp only [Placement.stop] at hlt
    exact haligned q hq (by omega)
  · exact Nat.le_trans (stop_le_of_stop_lt hp hlt) (hbounds q hq).2
  · refine (plan_ordered lifetimes hp).imp fun {a b} hab hlt _ => ?_
    rintro ⟨-, -, -, hclash⟩
    exact hclash (.inl (hab hlt))

end Linear

/-- Linear placement keeps its promise in every plan. -/
theorem Strategy.linear_sound : Strategy.linear.Sound := by
  intro lifetimes align capacity p h
  obtain ⟨hp, -, rfl, hpeak⟩ := checked_within_ok h
  exact Linear.plan_kept hp hpeak

theorem Strategy.linear_ordered {lifetimes : List Lifetime} {align capacity : Nat} {p : Plan}
    (h : Strategy.linear.place lifetimes align capacity = .ok p) :
    p.placements.Pairwise fun a b => a.stop < Word.max → a.stop ≤ b.offset := by
  obtain ⟨hp, -, rfl, -⟩ := checked_within_ok h
  exact Linear.plan_ordered lifetimes hp

end TensorArena
