import Mathlib.Algebra.Order.Field.Power
import Mathlib.Data.Rat.Cast.Order
import Mathlib.Tactic.NormNum
import Mathlib.Tactic.Positivity
import Mathlib.Tactic.Ring
import TensorArena.Number.Binary

/-!
# Whole numbers among floating-point numbers

The value of a floating-point number is a rational number. `value?` says which one, without a ratio
and without a common unit, and the comparison and the test for whole numbers are described by it.
-/

namespace TensorArena

namespace Binary

/-- The value of a number that is finite. -/
def value? : Binary → Option ℚ
  | finite negative mantissa exponent =>
    some ((if negative then -1 else 1) * mantissa * 2 ^ exponent)
  | _ => none

theorem cast_pow2 (n : Nat) : ((pow2 n : Nat) : ℚ) = 2 ^ (n : Int) := by
  rw [zpow_natCast]
  exact Nat.cast_pow 2 n

/-- The ratio that stands for a number has its size. -/
theorem ratio_eq (mantissa : Nat) (exponent : Int) :
    ((ratio mantissa exponent).1 : ℚ) / (ratio mantissa exponent).2 = mantissa * 2 ^ exponent := by
  have hsplit : exponent = (exponent.toNat : Int) - ((-exponent).toNat : Int) := by omega
  rw [ratio, Nat.cast_mul, cast_pow2, cast_pow2, mul_div_assoc, ← zpow_sub₀ two_ne_zero, ← hsplit]

theorem ratio_pos (mantissa : Nat) (exponent : Int) : 0 < (ratio mantissa exponent).2 :=
  Nat.two_pow_pos _

/-- A number is whole when it has the value of an integer. -/
theorem toInt?_eq_some_iff {b : Binary} {z : Int} : b.toInt? = some z ↔ b.value? = some (z : ℚ) := by
  cases b with
  | notANumber => simp only [toInt?, value?, reduceCtorEq]
  | infinite negative => simp only [toInt?, value?, reduceCtorEq]
  | finite negative mantissa exponent =>
    have hpos := ratio_pos mantissa exponent
    have hratio := ratio_eq mantissa exponent
    simp only [toInt?, value?, mul_assoc, ← hratio]
    generalize ratio mantissa exponent = r at hpos
    obtain ⟨num, den⟩ := r
    dsimp only at hpos ⊢
    have hne : (den : ℚ) ≠ 0 := Nat.cast_ne_zero.mpr (Nat.ne_of_gt hpos)
    by_cases hdvd : num % den = 0
    · obtain ⟨q, rfl⟩ := Nat.dvd_of_mod_eq_zero hdvd
      rw [if_pos hdvd, Nat.mul_div_cancel_left q hpos, Nat.cast_mul, mul_div_cancel_left₀ _ hne,
        Option.some_inj, Option.some_inj]
      cases negative with
      | false => simp only [Bool.false_eq_true, if_false, one_mul]; norm_cast
      | true => simp only [if_true, neg_one_mul]; norm_cast
    · rw [if_neg hdvd]
      refine ⟨by rintro ⟨⟩, fun hvalue => absurd ?_ hdvd⟩
      have hsize : (num : ℚ) / den = (z.natAbs : ℚ) := by
        have habs := congrArg abs (Option.some.inj hvalue)
        rw [abs_mul, abs_of_nonneg (by positivity : (0 : ℚ) ≤ num / den)] at habs
        rw [Nat.cast_natAbs, Int.cast_abs, ← habs]
        cases negative <;> simp
      rw [div_eq_iff hne] at hsize
      have hnum : num = z.natAbs * den := by exact_mod_cast hsize
      rw [hnum, Nat.mul_mod_left]

/-- A size counted in a unit that divides the last place. -/
theorem scaled_mul {negative : Bool} {mantissa : Nat} {exponent unit : Int} (h : unit ≤ exponent) :
    (scaled negative mantissa exponent unit : ℚ) * 2 ^ unit =
      (if negative then -1 else 1) * mantissa * 2 ^ exponent := by
  have hsum : exponent = ((exponent - unit).toNat : Int) + unit := by omega
  have hpow : (2 : ℚ) ^ exponent = (pow2 (exponent - unit).toNat : Nat) * 2 ^ unit := by
    rw [cast_pow2, ← zpow_add₀ two_ne_zero, ← hsum]
  rw [hpow, scaled]
  cases negative with
  | false => simp only [Bool.false_eq_true, if_false, one_mul]; push_cast; ring
  | true => simp only [if_true]; push_cast; ring

/-- Finite numbers compare as their values do. -/
theorem le_iff {a b : Binary} {x y : ℚ} (ha : a.value? = some x) (hb : b.value? = some y) :
    a.le b = true ↔ x ≤ y := by
  cases a with
  | notANumber => cases ha
  | infinite negative => cases ha
  | finite n m e =>
    cases b with
    | notANumber => cases hb
    | infinite negative => cases hb
    | finite n' m' e' =>
      obtain rfl := Option.some.inj ha
      obtain rfl := Option.some.inj hb
      rw [← scaled_mul (Int.min_le_left e e'), ← scaled_mul (Int.min_le_right e e')]
      rw [mul_le_mul_iff_of_pos_right (zpow_pos two_pos _), Int.cast_le]
      simp only [le, lt, Int.min_comm e' e, Bool.not_eq_true', decide_eq_false_iff_not, not_lt]

/-- A whole number is truncated to itself, as far as the bounds allow. -/
theorem truncate_eq {b : Binary} {z : Int} (h : b.toInt? = some z) (low high : Int) :
    b.truncate low high = max low (min high z) := by
  cases b with
  | notANumber => cases h
  | infinite negative => cases h
  | finite negative mantissa exponent =>
    simp only [toInt?] at h
    split at h
    · rw [← Option.some.inj h]
      rfl
    · cases h

end Binary

end TensorArena
