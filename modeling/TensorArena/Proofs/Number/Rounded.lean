import Mathlib.Data.Nat.Bitwise
import TensorArena.Proofs.Number.Whole

/-!
# Rounded numbers fit their words

A number that was rounded to a format has a mantissa below the format's bound: the greatest power of
two below the number says where its last place is, and rounding adds at most one there. So the result
of an operation on 32-bit words is a 32-bit word, and nothing is cut off when it is stored.
-/

namespace TensorArena

open Binary

/-! ## The logarithm of a quotient -/

theorem pow2_div_pow2 (e : Int) :
    (pow2 e.toNat : ℚ) / (pow2 (-e).toNat : ℚ) = 2 ^ e := by
  have hratio := ratio_eq 1 e
  simp only [ratio, Nat.cast_one, one_mul] at hratio
  exact hratio

theorem pow2_pos (n : Nat) : 0 < pow2 n :=
  Nat.two_pow_pos n

/-- A comparison of a quotient with a power of two, without negative exponents. -/
theorem zpow_le_div_iff {num den : Nat} (hden : 0 < den) (e : Int) :
    (2 : ℚ) ^ e ≤ num / den ↔ den * pow2 e.toNat ≤ num * pow2 (-e).toNat := by
  have hden' : (0 : ℚ) < den := Nat.cast_pos.mpr hden
  have hpow : (0 : ℚ) < pow2 (-e).toNat := Nat.cast_pos.mpr (pow2_pos _)
  rw [← pow2_div_pow2, div_le_div_iff₀ hpow hden', mul_comm (pow2 e.toNat : ℚ)]
  exact_mod_cast Iff.rfl

/-- A positive quotient is below the power of two after the one that its logarithm names. -/
theorem div_lt_zpow_floorLog2 {num den : Nat} (hden : 0 < den) :
    (num : ℚ) / den < 2 ^ (floorLog2 num den + 1) := by
  have hden' : (0 : ℚ) < den := Nat.cast_pos.mpr hden
  unfold floorLog2
  dsimp only
  split
  · have hnum : (num : ℚ) < 2 ^ ((num.log2 : Int) + 1) := by
      have hlt : num < 2 ^ (num.log2 + 1) := Nat.lt_log2_self
      exact_mod_cast hlt
    have hlog : (2 : ℚ) ^ (den.log2 : Int) ≤ den := by
      have hle : 2 ^ den.log2 ≤ den := Nat.log2_self_le (Nat.ne_of_gt hden)
      exact_mod_cast hle
    rw [div_lt_iff₀ hden']
    calc (num : ℚ) < 2 ^ ((num.log2 : Int) + 1) := hnum
      _ = 2 ^ ((num.log2 : Int) - den.log2 + 1) * 2 ^ (den.log2 : Int) := by
        rw [← zpow_add₀ two_ne_zero]
        congr 1
        ring
      _ ≤ 2 ^ ((num.log2 : Int) - den.log2 + 1) * den :=
        mul_le_mul_of_nonneg_left hlog (zpow_nonneg zero_le_two _)
  · rename_i hguess
    rw [← zpow_le_div_iff hden, not_le] at hguess
    rw [sub_add_cancel]
    exact hguess

/-! ## Rounding -/

theorem roundDivEven_le (num den : Nat) : roundDivEven num den ≤ num / den + 1 := by
  unfold roundDivEven
  have := Nat.mod_lt (num / den) two_pos
  split
  · omega
  · split <;> omega

namespace Format

/-- The number can be stored: what is finite has few enough digits, and no last place beyond the
greatest. -/
def Holds (f : Format) : Binary → Prop
  | .finite _ mantissa exponent => mantissa < pow2 f.precision ∧ exponent ≤ f.greatest
  | _ => True

variable {f : Format}

/-- The mantissa before a carry. -/
theorem roundDivEven_le_pow2 {num den : Nat} (hden : 0 < den) {exponent : Int}
    (hexponent : floorLog2 num den + 1 ≤ exponent + f.precision) :
    roundDivEven (num * pow2 (-exponent).toNat) (den * pow2 exponent.toNat) ≤ pow2 f.precision := by
  have hden' : (0 : ℚ) < den := Nat.cast_pos.mpr hden
  have hpow : (0 : ℚ) < pow2 (-exponent).toNat := Nat.cast_pos.mpr (pow2_pos _)
  have hlt : (num : ℚ) / den < 2 ^ exponent * pow2 f.precision := by
    rw [cast_pow2, ← zpow_add₀ two_ne_zero]
    exact (div_lt_zpow_floorLog2 hden).trans_le (zpow_le_zpow_right₀ one_le_two hexponent)
  rw [← pow2_div_pow2, div_mul_eq_mul_div, div_lt_div_iff₀ hden' hpow] at hlt
  have hnat : num * pow2 (-exponent).toNat < den * pow2 exponent.toNat * pow2 f.precision := by
    have hcast : num * pow2 (-exponent).toNat < pow2 exponent.toNat * pow2 f.precision * den := by
      exact_mod_cast hlt
    rw [Nat.mul_assoc, Nat.mul_comm den]
    exact hcast
  have hdiv := Nat.div_lt_of_lt_mul hnat
  exact Nat.le_trans (roundDivEven_le ..) hdiv

theorem holds_round (hprecision : 0 < f.precision) (hrange : f.least ≤ f.greatest)
    (negative : Bool) {num den : Nat} (hden : 0 < den) : f.Holds (f.round negative num den) := by
  unfold round
  split
  · exact ⟨pow2_pos _, hrange⟩
  · have hle : roundDivEven
        (num * pow2 (-(max (floorLog2 num den - (f.precision - 1 : Nat)) f.least)).toNat)
        (den * pow2 (max (floorLog2 num den - (f.precision - 1 : Nat)) f.least).toNat) ≤
        pow2 f.precision := roundDivEven_le_pow2 hden (by omega)
    generalize max (floorLog2 num den - (f.precision - 1 : Nat)) f.least = exponent at hle
    dsimp only
    split
    · -- A carry leaves the least mantissa of one digit more.
      split
      · trivial
      · rename_i hgreatest
        exact ⟨Nat.pow_lt_pow_right one_lt_two (by omega), not_lt.mp hgreatest⟩
    · rename_i hcarry
      split
      · trivial
      · rename_i hgreatest
        exact ⟨Nat.lt_of_le_of_ne hle hcarry, not_lt.mp hgreatest⟩

/-! ## Arithmetic -/

theorem holds_zero (hrange : f.least ≤ f.greatest) (negative : Bool) :
    f.Holds (.finite negative 0 f.least) :=
  ⟨pow2_pos _, hrange⟩

theorem holds_mul (hprecision : 0 < f.precision) (hrange : f.least ≤ f.greatest) (a b : Binary) :
    f.Holds (f.mul a b) := by
  unfold mul
  split
  · rename_i n m e n' m' e'
    exact holds_round hprecision hrange (n != n') (ratio_pos (m * m') (e + e'))
  · trivial
  · split <;> trivial
  · split <;> trivial
  · trivial
  · trivial

theorem holds_add (hprecision : 0 < f.precision) (hrange : f.least ≤ f.greatest) (a b : Binary) :
    f.Holds (f.add a b) := by
  unfold add
  split
  · dsimp only
    split
    · exact holds_zero hrange _
    · exact holds_round hprecision hrange _ (ratio_pos _ _)
  · split <;> trivial
  · trivial
  · trivial
  · trivial
  · trivial

/-- A number that can be stored in 32 bits has a word of 32 bits. -/
theorem encode_single_lt {b : Binary} (h : single.Holds b) : single.encode b < 2 ^ 32 := by
  cases b with
  | notANumber => decide
  | infinite negative => cases negative <;> decide
  | finite negative mantissa exponent =>
    obtain ⟨hmantissa, hexponent⟩ := h
    change mantissa < 16777216 at hmantissa
    change exponent ≤ 104 at hexponent
    have hsign : (if negative = true then pow2 (single.width - 1) else 0) ≤ 2147483648 := by
      cases negative <;> decide
    have hfield : (if mantissa < 8388608 then mantissa
        else ((exponent - -149).toNat + 1) * 8388608 + (mantissa - 8388608)) < 2147483648 := by
      split <;> omega
    exact Nat.add_lt_add_of_le_of_lt hsign hfield

/-- An operation whose results can be stored takes words of 32 bits to words of 32 bits. -/
theorem onWords_single_lt {operation : Binary → Binary → Binary}
    (h : ∀ x y, single.Holds (operation x y)) {a b : Nat} (ha : a < 2 ^ 32) (hb : b < 2 ^ 32) :
    single.onWords operation a b < 2 ^ 32 := by
  have hquiet : pow2 (single.fractionBits - 1) < 2 ^ 32 := by decide
  unfold onWords
  dsimp only
  split
  · exact Nat.or_lt_two_pow ha hquiet
  · exact Nat.or_lt_two_pow hb hquiet
  · split
    · decide
    · rename_i hresult
      exact encode_single_lt (h _ _)

end Format

end TensorArena
