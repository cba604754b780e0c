import TensorArena.Proofs.Plan.Bounds

/-!
# Validation, byte by byte

The check of a plan compares ends: two lifetimes meet when each starts no later than the other one
ends, and two buffers share bytes when neither ends before the other starts. What is meant has no
ends in it. At an operator a buffer that is alive `Occupies` its bytes, and a plan is good when no
byte is occupied twice at one operator and none lies outside the block.

The two agree as soon as no lifetime ends before it starts: then lifetimes that meet have an
operator in common, the later of the two first ones, and ranges that are not one after the other
have a byte in common, the later of the two offsets.
-/

namespace TensorArena

/-! ## Common points -/

theorem Lifetime.overlaps_iff {a b : Lifetime} (ha : a.first ≤ a.last) (hb : b.first ≤ b.last) :
    a.Overlaps b ↔ ∃ k, a.AliveAt k ∧ b.AliveAt k := by
  constructor
  · rintro ⟨hab, hba⟩
    refine ⟨max a.first b.first, ?_⟩
    simp only [AliveAt]
    omega
  · rintro ⟨k, hka, hkb⟩
    exact overlaps_of_aliveAt hka hkb

namespace ByteRange

/-- Ranges have a byte in common when both hold bytes and neither ends before the other starts. -/
theorem exists_covers_iff {r s : ByteRange} : (∃ x, r.Covers x ∧ s.Covers x) ↔
    r.length ≠ 0 ∧ s.length ≠ 0 ∧ ¬ (r.stop ≤ s.offset ∨ s.stop ≤ r.offset) := by
  constructor
  · rintro ⟨x, hr, hs⟩
    refine ⟨fun hzero => not_covers_of_length_eq_zero hzero x hr,
      fun hzero => not_covers_of_length_eq_zero hzero x hs, ?_⟩
    rintro (hle | hle)
    · exact apart_of_stop_le hle x hr hs
    · exact apart_of_stop_le hle x hs hr
  · rintro ⟨hr, hs, hmeet⟩
    by_contra hnone
    exact hmeet (Apart.le_or_le (fun x hxr hxs => hnone ⟨x, hxr, hxs⟩) hr hs)

/-- All bytes of a range lie below a bound when it ends there; a range without bytes has none. -/
theorem forall_covers_lt_iff {r : ByteRange} {bound : Nat} :
    (∀ x, r.Covers x → x < bound) ↔ (r.length ≠ 0 → r.stop ≤ bound) := by
  simp only [Covers, stop]
  constructor
  · intro h hr
    have hlast := h (r.offset + r.length - 1)
    omega
  · intro h x hx
    have hr := h (by omega)
    omega

end ByteRange

namespace Placement

/-- The bytes that are set aside for the buffer. -/
def bytes (q : Placement) : ByteRange :=
  ⟨q.offset, q.lifetime.size⟩

/-- Whether operator `k` finds the buffer alive and the byte at `x` in it. -/
def Occupies (q : Placement) (k x : Nat) : Prop :=
  q.lifetime.AliveAt k ∧ q.bytes.Covers x

/-- Two buffers clash when some byte belongs to both at some operator. -/
theorem clashes_iff {a b : Placement} (ha : a.lifetime.first ≤ a.lifetime.last)
    (hb : b.lifetime.first ≤ b.lifetime.last) :
    a.Clashes b ↔ ∃ k x, a.Occupies k x ∧ b.Occupies k x := by
  have hbytes : (∃ x, a.bytes.Covers x ∧ b.bytes.Covers x) ↔
      0 < a.lifetime.size ∧ 0 < b.lifetime.size ∧ ¬ (a.stop ≤ b.offset ∨ b.stop ≤ a.offset) := by
    rw [ByteRange.exists_covers_iff, Nat.pos_iff_ne_zero, Nat.pos_iff_ne_zero]
    rfl
  constructor
  · rintro ⟨hposa, hposb, hover, hshare⟩
    obtain ⟨k, hka, hkb⟩ := (Lifetime.overlaps_iff ha hb).mp hover
    obtain ⟨x, hxa, hxb⟩ := hbytes.mpr ⟨hposa, hposb, hshare⟩
    exact ⟨k, x, ⟨hka, hxa⟩, ⟨hkb, hxb⟩⟩
  · rintro ⟨k, x, ⟨hka, hxa⟩, ⟨hkb, hxb⟩⟩
    obtain ⟨hposa, hposb, hshare⟩ := hbytes.mp ⟨x, hxa, hxb⟩
    exact ⟨hposa, hposb, (Lifetime.overlaps_iff ha hb).mpr ⟨k, hka, hkb⟩, hshare⟩

end Placement

/-! ## Which plans pass -/

/-- A relation that is the same from both sides holds pairwise when it holds between the entries at
any two positions, in whatever order. -/
theorem pairwise_iff_forall_ne {α : Type} {R : α → α → Prop} (symm : ∀ a b, R a b → R b a)
    {l : List α} : l.Pairwise R ↔
      ∀ (i j : Nat) (a b : α), i ≠ j → l[i]? = some a → l[j]? = some b → R a b := by
  rw [List.pairwise_iff_getElem]
  constructor
  · intro h i j a b hne ha hb
    obtain ⟨hi, rfl⟩ := List.getElem?_eq_some_iff.mp ha
    obtain ⟨hj, rfl⟩ := List.getElem?_eq_some_iff.mp hb
    rcases Nat.lt_or_gt_of_ne hne with hlt | hlt
    · exact h i j hi hj hlt
    · exact symm _ _ (h j i hj hi hlt)
  · intro h i j hi hj hlt
    exact h i j _ _ (Nat.ne_of_lt hlt) (List.getElem?_eq_getElem hi) (List.getElem?_eq_getElem hj)

namespace Plan

/-- A plan in which no lifetime ends before it starts passes exactly when every byte of a buffer
that holds bytes lies in the block, and two different placements never occupy one byte at one
operator. -/
theorem validate_eq_ok_iff_pointwise {p : Plan}
    (hordered : ∀ q ∈ p.placements, q.lifetime.first ≤ q.lifetime.last) :
    p.validate = .ok () ↔
      (∀ q ∈ p.placements, 0 < q.lifetime.size → ∀ x, q.bytes.Covers x → x < p.peak) ∧
      ∀ (i j : Nat) (a b : Placement), i ≠ j → p.placements[i]? = some a →
        p.placements[j]? = some b → ¬ ∃ k x, a.Occupies k x ∧ b.Occupies k x := by
  rw [validate, validatePlacements_eq_ok_iff,
    pairwise_iff_forall_ne fun a b h hba => h hba.symm]
  refine and_congr ?_ ?_
  · refine forall₂_congr fun q _ => ?_
    constructor
    · intro hstop hpos
      exact ByteRange.forall_covers_lt_iff.mpr fun _ => hstop hpos
    · intro hinside hpos
      exact ByteRange.forall_covers_lt_iff.mp (hinside hpos) (Nat.ne_of_gt hpos)
  · refine forall₄_congr fun i j a b => forall₃_congr fun _ ha hb => not_congr ?_
    exact Placement.clashes_iff (hordered a (List.mem_of_getElem? ha))
      (hordered b (List.mem_of_getElem? hb))

/-- The plan that reuses bytes passes: at no operator is a byte occupied twice, although its first
and its third buffer have the same offset. -/
theorem validate_eq_ok_iff_pointwise_of_reusing :
    (∀ q ∈ reusing.placements, q.lifetime.first ≤ q.lifetime.last) ∧ reusing.validate = .ok () ∧
      ∀ k x, Placement.Occupies ⟨⟨.tensor 0, 0, 1, 20⟩, 16⟩ k x →
        ¬ Placement.Occupies ⟨⟨.tensor 2, 2, 3, 30⟩, 16⟩ k x := by
  have hordered : ∀ q ∈ reusing.placements, q.lifetime.first ≤ q.lifetime.last := by decide
  have hvalid : reusing.validate = .ok () := by decide
  obtain ⟨-, hapart⟩ := (validate_eq_ok_iff_pointwise hordered).mp hvalid
  exact ⟨hordered, hvalid, fun k x hfirst hthird =>
    hapart 0 2 _ _ (by decide) rfl rfl ⟨k, x, hfirst, hthird⟩⟩

end Plan

end TensorArena
