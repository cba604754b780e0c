import Mathlib.Algebra.BigOperators.Ring.List
import Mathlib.Algebra.Ring.Nat
import Mathlib.Data.List.TakeWhile
import TensorArena.Tensor.Shape

/-!
# Element counts

The elements of a shape are counted from the left, and the count is given up as soon as it is no word.
So what decides is not the product of all dimensions but the greatest count on the way, which is the
product of the dimensions before the first zero. For shapes without a zero the two are the same: the
count is there exactly when the product is a word, in whatever order the dimensions stand. A zero that
comes behind an overflow comes too late.
-/

namespace TensorArena

theorem Word.mul?_eq_some_iff {a b n : Nat} :
    Word.mul? a b = some n ↔ n = a * b ∧ a * b ≤ Word.max := by
  unfold mul?
  split
  · rename_i hle
    exact ⟨fun h => ⟨(Option.some.inj h).symm, hle⟩, fun h => congrArg some h.1.symm⟩
  · rename_i hgt
    exact ⟨nofun, fun h => absurd h.2 hgt⟩

namespace Shape

/-- The product of the dimensions before the first zero. -/
def countBeforeZero (s : Shape) : Nat :=
  (s.dims.takeWhile (· ≠ 0)).prod

theorem prod_takeWhile_pos (dims : List Nat) : 0 < (dims.takeWhile (· ≠ 0)).prod := by
  refine Nat.pos_of_ne_zero (List.prod_ne_zero fun hzero => ?_)
  simpa using List.mem_takeWhile_imp hzero

theorem countBeforeZero_eq_prod {s : Shape} (h : 0 ∉ s.dims) : s.countBeforeZero = s.dims.prod := by
  rw [countBeforeZero, List.takeWhile_eq_self_iff.mpr]
  intro d hd
  exact decide_eq_true fun hzero => h (hzero ▸ hd)

/-- Counting on from a word. -/
theorem foldlM_mul?_eq_some_iff {dims : List Nat} {count n : Nat} (h : count ≤ Word.max) :
    dims.foldlM Word.mul? count = some n ↔
      n = count * dims.prod ∧ count * (dims.takeWhile (· ≠ 0)).prod ≤ Word.max := by
  induction dims generalizing count with
  | nil => simp [h, eq_comm]
  | cons d rest ih =>
    have hstep : (d :: rest).foldlM Word.mul? count = some n ↔
        count * d ≤ Word.max ∧ rest.foldlM Word.mul? (count * d) = some n := by
      rw [List.foldlM_cons, Option.bind_eq_bind, Option.bind_eq_some_iff]
      simp only [Word.mul?_eq_some_iff, and_assoc, exists_eq_left]
    rw [hstep, List.prod_cons, ← Nat.mul_assoc]
    by_cases hd : d = 0
    · -- From here on the count is zero, whatever the other dimensions are.
      subst hd
      rw [List.takeWhile_cons_of_neg (by simp), List.prod_nil, Nat.mul_one, Nat.mul_zero,
        ih (Nat.zero_le _)]
      simp [h]
    · have hpos := prod_takeWhile_pos rest
      rw [List.takeWhile_cons_of_pos (by simpa using hd), List.prod_cons, ← Nat.mul_assoc]
      constructor
      · rintro ⟨hle, hrest⟩
        exact (ih hle).mp hrest
      · rintro ⟨hn, hle⟩
        have hcount : count * d ≤ Word.max := Nat.le_trans (Nat.le_mul_of_pos_right _ hpos) hle
        exact ⟨hcount, (ih hcount).mpr ⟨hn, hle⟩⟩

/-- A count is the product of the dimensions, and it is there when those before the first zero
multiply to a word. -/
theorem elements?_eq_some_iff {s : Shape} {n : Nat} :
    s.elements? = some n ↔ n = s.dims.prod ∧ s.countBeforeZero ≤ Word.max := by
  rw [elements?, foldlM_mul?_eq_some_iff (by decide), Nat.one_mul, Nat.one_mul, countBeforeZero]

theorem bytes?_eq_some_iff {s : Shape} {d : DType} {b : Nat} :
    s.bytes? d = some b ↔ b = s.dims.prod * d.size ∧ s.countBeforeZero ≤ Word.max ∧
      s.dims.prod * d.size ≤ Word.max := by
  rw [bytes?, Option.bind_eq_some_iff]
  constructor
  · rintro ⟨n, hn, hb⟩
    obtain ⟨rfl, hcount⟩ := elements?_eq_some_iff.mp hn
    obtain ⟨rfl, hle⟩ := Word.mul?_eq_some_iff.mp hb
    exact ⟨rfl, hcount, hle⟩
  · rintro ⟨rfl, hcount, hle⟩
    exact ⟨_, elements?_eq_some_iff.mpr ⟨rfl, hcount⟩, Word.mul?_eq_some_iff.mpr ⟨rfl, hle⟩⟩

/-- Counts of shapes that agree on the product and on the product before the first zero agree. -/
theorem counts_eq {s t : Shape} (hprod : t.dims.prod = s.dims.prod)
    (hcount : t.countBeforeZero = s.countBeforeZero) (d : DType) :
    t.elements? = s.elements? ∧ t.bytes? d = s.bytes? d := by
  constructor
  · refine Option.ext fun n => ?_
    rw [elements?_eq_some_iff, elements?_eq_some_iff, hprod, hcount]
  · refine Option.ext fun b => ?_
    rw [bytes?_eq_some_iff, bytes?_eq_some_iff, hprod, hcount]

/-- What the counts of a shape are, and when they are there. Elements are counted when the dimensions
before the first zero multiply to a word, and bytes when the product is one as well. For a shape
without a zero this asks for the products alone, and the order of the dimensions does not matter; for
other shapes the order decides whether there is a count, but never which one. -/
theorem counts_exact (s : Shape) (d : DType) :
    (∀ n, s.elements? = some n ↔ n = s.dims.prod ∧ s.countBeforeZero ≤ Word.max) ∧
    (∀ b, s.bytes? d = some b ↔ b = s.dims.prod * d.size ∧ s.countBeforeZero ≤ Word.max ∧
      s.dims.prod * d.size ≤ Word.max) ∧
    (0 ∉ s.dims →
      (∀ n, s.elements? = some n ↔ n = s.dims.prod ∧ s.dims.prod ≤ Word.max) ∧
      (∀ b, s.bytes? d = some b ↔ b = s.dims.prod * d.size ∧ s.dims.prod * d.size ≤ Word.max) ∧
      ∀ t : Shape, t.dims.Perm s.dims → t.elements? = s.elements? ∧ t.bytes? d = s.bytes? d) ∧
    ∀ t : Shape, t.dims.Perm s.dims →
      (∀ n ∈ s.elements?, ∀ n' ∈ t.elements?, n' = n) ∧
      ∀ b ∈ s.bytes? d, ∀ b' ∈ t.bytes? d, b' = b := by
  refine ⟨fun n => elements?_eq_some_iff, fun b => bytes?_eq_some_iff, fun hzero => ?_,
    fun t hperm => ⟨fun n hn n' hn' => ?_, fun b hb b' hb' => ?_⟩⟩
  · have hcount := countBeforeZero_eq_prod hzero
    refine ⟨fun n => ?_, fun b => ?_, fun t hperm => ?_⟩
    · rw [elements?_eq_some_iff, hcount]
    · rw [bytes?_eq_some_iff, hcount]
      refine and_congr_right fun _ => and_iff_right_of_imp fun hle => ?_
      exact Nat.le_trans (Nat.le_mul_of_pos_right _ d.size_pos) hle
    · have hzero' : 0 ∉ t.dims := fun h => hzero (hperm.mem_iff.mp h)
      exact counts_eq hperm.prod_eq
        (by rw [countBeforeZero_eq_prod hzero', hcount, hperm.prod_eq]) d
  · rw [(elements?_eq_some_iff.mp hn').1, (elements?_eq_some_iff.mp hn).1, hperm.prod_eq]
  · rw [(bytes?_eq_some_iff.mp hb').1, (bytes?_eq_some_iff.mp hb).1, hperm.prod_eq]

/-- Elements that can be counted and bytes that cannot, in two orders of the dimensions. -/
theorem counts_exact_of_large :
    0 ∉ [pow2 40, 3, pow2 21] ∧ [pow2 21, pow2 40, 3].Perm [pow2 40, 3, pow2 21] ∧
      (⟨[pow2 40, 3, pow2 21]⟩ : Shape).elements? = some (3 * pow2 61) ∧
      (⟨[pow2 21, pow2 40, 3]⟩ : Shape).elements? = some (3 * pow2 61) ∧
      (⟨[pow2 21, pow2 40, 3]⟩ : Shape).bytes? .i32 = none := by
  have hzero : 0 ∉ [pow2 40, 3, pow2 21] := by decide
  have hperm : [pow2 21, pow2 40, 3].Perm [pow2 40, 3, pow2 21] := by decide
  have hexact := (counts_exact ⟨[pow2 40, 3, pow2 21]⟩ .i32).2.2.1 hzero
  have hcount : (⟨[pow2 40, 3, pow2 21]⟩ : Shape).elements? = some (3 * pow2 61) :=
    (hexact.1 _).mpr (by decide)
  obtain ⟨helements, hbytes⟩ := hexact.2.2 ⟨[pow2 21, pow2 40, 3]⟩ hperm
  refine ⟨hzero, hperm, hcount, helements.trans hcount, ?_⟩
  rw [hbytes, Option.eq_none_iff_forall_ne_some]
  intro b hb
  exact absurd ((hexact.2.1 b).mp hb).2 (by decide)

/-- A zero behind an overflow: the shape has no elements, and that is noticed only when the zero stands
first. -/
theorem elements?_of_late_zero :
    (⟨[Word.max, 2, 0]⟩ : Shape).dims.prod ≤ Word.max ∧
      (⟨[Word.max, 2, 0]⟩ : Shape).elements? = none ∧
      (⟨[Word.max, 2, 0]⟩ : Shape).bytes? .i32 = none ∧
      [0, Word.max, 2].Perm [Word.max, 2, 0] ∧
      (⟨[0, Word.max, 2]⟩ : Shape).elements? = some 0 ∧
      (⟨[0, Word.max, 2]⟩ : Shape).bytes? .i32 = some 0 := by
  decide

end Shape

end TensorArena
