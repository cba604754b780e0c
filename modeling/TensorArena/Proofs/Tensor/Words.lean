import Mathlib.Algebra.Group.Nat.Defs
import TensorArena.Arena.Basic
import TensorArena.Tensor.Packed
import TensorArena.Tensor.View

/-!
# Bytes and words

Words come back from their bytes, and packed bytes come back from the words that hold them. With that a
typed reading is settled: from an address and over a length that the element type divides it gives the
words of the bytes.
-/

namespace TensorArena

namespace Bytes

/-! ## One word -/

theorem length_ofNat (width n : Nat) : (ofNat width n).length = width := by
  induction width generalizing n with
  | zero => rfl
  | succ width ih => rw [ofNat, List.length_cons, ih]

theorem toNat_ofNat (width n : Nat) : toNat (ofNat width n) = n % 256 ^ width := by
  induction width generalizing n with
  | zero => simp [ofNat, toNat, Nat.mod_one]
  | succ width ih =>
    have hbyte : (UInt8.ofNat (n % 256)).toNat = n % 256 := by
      rw [UInt8.toNat_ofNat']
      exact Nat.mod_mod n 256
    rw [ofNat, toNat, ih, hbyte, Nat.pow_succ', Nat.mod_mul]

theorem toNat_lt (bytes : Bytes) : toNat bytes < 256 ^ bytes.length := by
  induction bytes with
  | nil => exact Nat.one_pos
  | cons b rest ih =>
    have hb := b.toNat_lt
    rw [toNat, List.length_cons, Nat.pow_succ]
    omega

theorem ofNat_zero (width : Nat) : ofNat width 0 = List.replicate width 0 := by
  induction width with
  | zero => rfl
  | succ width ih => exact congrArg _ ih

/-- Bytes come back from the number that they spell, with zeros behind them. -/
theorem ofNat_toNat {width : Nat} {bytes : Bytes} (h : bytes.length ≤ width) :
    ofNat width (toNat bytes) = bytes ++ List.replicate (width - bytes.length) 0 := by
  induction bytes generalizing width with
  | nil => exact ofNat_zero width
  | cons b rest ih =>
    obtain ⟨width, rfl⟩ := Nat.exists_eq_add_of_lt (Nat.lt_of_lt_of_le (Nat.succ_pos _) h)
    have hb := b.toNat_lt
    rw [List.length_cons] at h
    have hlow : (b.toNat + 256 * toNat rest) % 256 = b.toNat := by omega
    have hhigh : (b.toNat + 256 * toNat rest) / 256 = toNat rest := by omega
    rw [Nat.zero_add, ofNat, toNat, hlow, hhigh, ih (by omega), UInt8.ofNat_toNat, List.length_cons,
      Nat.add_sub_add_right, List.cons_append]

/-- Eight bytes or fewer come back from the 64-bit word that they spell, with zeros behind them. -/
theorem ofNat_toNat_word {bytes : Bytes} (h : bytes.length ≤ 8) :
    ofNat 8 (UInt64.ofNat (toNat bytes)).toNat = bytes ++ List.replicate (8 - bytes.length) 0 := by
  have hlt : toNat bytes < 2 ^ 64 :=
    Nat.lt_of_lt_of_le (toNat_lt bytes) (Nat.pow_le_pow_right (n := 256) (by decide) h)
  rw [UInt64.toNat_ofNat', Nat.mod_eq_of_lt hlt, ofNat_toNat h]

/-! ## Words one after another -/

theorem length_words (width : Nat) (bytes : Bytes) :
    (words width bytes).length = bytes.length / width := by
  simp [words]

theorem getElem?_words {width : Nat} (bytes : Bytes) (k : Nat) :
    (words width bytes)[k]? =
      if k < bytes.length / width then some (toNat ((bytes.drop (k * width)).take width)) else none := by
  by_cases hk : k < bytes.length / width
  · simp [words, hk]
  · simp [words, hk]

theorem words_lt {width : Nat} {bytes : Bytes} {w : Nat} (h : w ∈ words width bytes) :
    w < 256 ^ width := by
  obtain ⟨k, hk⟩ := List.mem_iff_getElem?.mp h
  rw [getElem?_words] at hk
  split at hk
  · cases hk
    refine Nat.lt_of_lt_of_le (toNat_lt _) (Nat.pow_le_pow_right (by decide) ?_)
    rw [List.length_take]
    exact Nat.min_le_left ..
  · cases hk

/-- The first word is that of the first bytes. -/
theorem words_append {width : Nat} (hwidth : 0 < width) {first : Bytes} (hfirst : first.length = width)
    (rest : Bytes) : words width (first ++ rest) = toNat first :: words width rest := by
  have hcount : (first ++ rest).length / width = rest.length / width + 1 := by
    rw [List.length_append, hfirst, Nat.add_comm, Nat.add_div_right _ hwidth]
  apply List.ext_getElem?
  intro k
  rw [getElem?_words, hcount]
  cases k with
  | zero => simp [← hfirst]
  | succ k =>
    have hdrop : (first ++ rest).drop ((k + 1) * width) = rest.drop (k * width) := by
      rw [Nat.succ_mul, Nat.add_comm, ← hfirst, List.drop_length_add_append]
    rw [List.getElem?_cons_succ, getElem?_words, hdrop]
    simp

theorem ofWords_cons (width w : Nat) (ws : List Nat) :
    ofWords width (w :: ws) = ofNat width w ++ ofWords width ws :=
  List.flatMap_cons

theorem length_ofWords (width : Nat) (ws : List Nat) :
    (ofWords width ws).length = ws.length * width := by
  induction ws with
  | nil => rw [ofWords, List.flatMap_nil, List.length_nil, List.length_nil, Nat.zero_mul]
  | cons w rest ih =>
    rw [ofWords_cons, List.length_append, length_ofNat, List.length_cons, Nat.succ_mul, Nat.add_comm,
      ← ih]

/-- Words that fit their width come back from their bytes. -/
theorem words_ofWords {width : Nat} (hwidth : 0 < width) {ws : List Nat}
    (hfit : ∀ w ∈ ws, w < 256 ^ width) : words width (ofWords width ws) = ws := by
  induction ws with
  | nil =>
    apply List.eq_nil_of_length_eq_zero
    rw [length_words, length_ofWords, List.length_nil, Nat.zero_mul, Nat.zero_div]
  | cons w rest ih =>
    obtain ⟨hw, hrest⟩ := List.forall_mem_cons.mp hfit
    rw [ofWords_cons, words_append hwidth (length_ofNat width w), toNat_ofNat, Nat.mod_eq_of_lt hw,
      ih hrest]

end Bytes

/-! ## Packed bytes -/

namespace Packed

/-- The bytes of all words, those behind the length too. -/
def spelled (p : Packed) : Bytes :=
  p.words.toList.flatMap fun w => Bytes.ofNat 8 w.toNat

theorem toBytes_eq_take (p : Packed) : p.toBytes = p.spelled.take p.length :=
  rfl

theorem spelled_eq_ofWords (p : Packed) :
    p.spelled = Bytes.ofWords 8 (p.words.toList.map UInt64.toNat) :=
  (List.flatMap_map ..).symm

theorem length_spelled (p : Packed) : p.spelled.length = p.words.size * 8 := by
  rw [spelled_eq_ofWords, Bytes.length_ofWords, List.length_map, Array.length_toList]

theorem length_toBytes (p : Packed) : p.toBytes.length = p.length := by
  have hsize := p.size_eq
  rw [toBytes_eq_take, List.length_take, length_spelled]
  omega

theorem getElem?_wordsOf (bytes : Bytes) (k : Nat) :
    (wordsOf bytes).toList[k]? =
      if k < (bytes.length + 7) / 8 then
        some (UInt64.ofNat (Bytes.toNat ((bytes.drop (k * 8)).take 8))) else none := by
  by_cases hk : k < (bytes.length + 7) / 8
  · simp [wordsOf, hk]
  · simp [wordsOf, hk]

/-- The first word holds the first eight bytes, or all if there are fewer. -/
theorem wordsOf_eq_cons {bytes : Bytes} (h : bytes ≠ []) :
    (wordsOf bytes).toList =
      UInt64.ofNat (Bytes.toNat (bytes.take 8)) :: (wordsOf (bytes.drop 8)).toList := by
  have hpos := List.length_pos_iff.mpr h
  apply List.ext_getElem?
  intro k
  rw [getElem?_wordsOf]
  cases k with
  | zero =>
    rw [if_pos (by omega), Nat.zero_mul, List.drop_zero, List.getElem?_cons_zero]
  | succ k =>
    rw [List.getElem?_cons_succ, getElem?_wordsOf, List.length_drop, List.drop_drop,
      Nat.succ_mul, Nat.add_comm (k * 8) 8]
    have hcount : k + 1 < (bytes.length + 7) / 8 ↔ k < (bytes.length - 8 + 7) / 8 := by omega
    simp only [hcount]

/-- The words spell the bytes, with zeros behind them up to the end of the last word. -/
theorem spelled_ofBytes (bytes : Bytes) : (ofBytes bytes).spelled =
    bytes ++ List.replicate ((bytes.length + 7) / 8 * 8 - bytes.length) 0 := by
  induction hn : bytes.length using Nat.strongRecOn generalizing bytes with
  | ind n ih =>
    subst hn
    by_cases hnil : bytes = []
    · rw [hnil]
      rfl
    · have hpos := List.length_pos_iff.mpr hnil
      have hfirst := Bytes.ofNat_toNat_word (List.length_take_le 8 bytes)
      have hrest : (ofBytes bytes).spelled =
          Bytes.ofNat 8 (UInt64.ofNat (Bytes.toNat (bytes.take 8))).toNat ++
            (ofBytes (bytes.drop 8)).spelled := by
        rw [spelled, ofBytes, wordsOf_eq_cons hnil, List.flatMap_cons]
        rfl
      rw [hrest, hfirst, ih _ (by rw [List.length_drop]; omega) _ rfl, List.length_drop]
      by_cases hlong : 8 ≤ bytes.length
      · -- The first word is full, so the zeros are those of the others.
        have hlength : (bytes.take 8).length = 8 := by
          rw [List.length_take]
          omega
        have hzeros : (bytes.length - 8 + 7) / 8 * 8 - (bytes.length - 8) =
            (bytes.length + 7) / 8 * 8 - bytes.length := by omega
        rw [hlength, Nat.sub_self, List.replicate_zero, List.append_nil, ← List.append_assoc,
          List.take_append_drop, hzeros]
      · -- There is one word only.
        have hnone : (bytes.length - 8 + 7) / 8 * 8 - (bytes.length - 8) = 0 := by omega
        have hzeros : (bytes.length + 7) / 8 * 8 - bytes.length = 8 - bytes.length := by omega
        rw [List.take_of_length_le (by omega), List.drop_of_length_le (by omega), hnone, hzeros,
          List.replicate_zero, List.append_nil, List.append_nil]

@[simp]
theorem toBytes_ofBytes (bytes : Bytes) : (ofBytes bytes).toBytes = bytes := by
  rw [toBytes_eq_take, spelled_ofBytes]
  exact List.take_left' rfl

end Packed

/-! ## Reading words -/

theorem Slice.elements_eq {s : Slice} {d : DType} (haddress : d.size ∣ s.address)
    (hlen : d.size ∣ s.bytes.length) : s.elements d d = .ok (Bytes.words d.size s.bytes) := by
  unfold Slice.elements
  rw [if_neg (fun h => h rfl), if_neg (fun h => h (Nat.mod_eq_zero_of_dvd haddress)),
    if_neg (fun h => h (Nat.mod_eq_zero_of_dvd hlen))]

/-- The words that packed bytes are kept in suit every element type. -/
theorem DType.size_dvd_eight (d : DType) : d.size ∣ 8 := by
  cases d with
  | _ => decide

theorem DType.size_dvd (d : DType) : d.size ∣ arenaAlignment :=
  Nat.dvd_trans d.size_dvd_eight (by decide)

end TensorArena
