import Mathlib.Data.List.Forall2
import TensorArena.Graph.Manifest
import TensorArena.Proofs.Number.Whole
import TensorArena.Proofs.Tensor.Counts
import TensorArena.Proofs.Tensor.Words

/-!
# Integer constants

A manifest gives constant data as doubles. For an integer type they are stored when there are as many
of them as the shape has elements and each is a whole number of the type's range; read back with the
type of the tensor, the elements are these numbers. The ends of the range are compared as doubles, and
one of them is none: what the greatest 64-bit integer is compared as is the number after it. That one
number outside the range is accepted too, and the greatest integer is stored in its place.
-/

namespace TensorArena

/-- What follows for an element from its counterpart holds of the whole list. -/
theorem forall_of_forall₂ {α β : Type} {R : α → β → Prop} {P : α → Prop} {l : List α} {l' : List β}
    (h : List.Forall₂ R l l') (hP : ∀ a b, R a b → P a) : ∀ a ∈ l, P a :=
  ((List.forall₂_and_left l l').mp (h.imp fun a b hab => And.intro (hP a b hab) hab)).1

namespace DType

variable {d : DType}

/-! ## Integers as words -/

theorem modulus_eq (d : DType) : d.modulus = 256 ^ d.size := by
  cases d with
  | _ => decide

theorem ofInt_lt (d : DType) (z : Int) : d.ofInt z < 256 ^ d.size := by
  have hpos : (0 : Int) < d.modulus := Int.natCast_pos.mpr (Nat.two_pow_pos _)
  have hlt := Int.emod_lt_of_pos z hpos
  have hnonneg := Int.emod_nonneg z (Int.ne_of_gt hpos)
  rw [← modulus_eq, ofInt]
  omega

/-- An integer of the range comes back from its word. -/
theorem toInt_ofInt {z : Int} (hleast : d.least ≤ z) (hgreatest : z ≤ d.greatest) :
    d.toInt (d.ofInt z) = z := by
  simp only [least, greatest, toInt, ofInt, modulus_eq] at *
  cases d with
  | _ =>
    simp only [isSigned, size, if_true, if_false, Bool.false_eq_true, true_and, false_and] at *
    omega

/-! ## The bounds as doubles -/

/-- What the greatest integer of the type is compared as: the double that is nearest to it. -/
def ceiling (d : DType) : Int :=
  if d = .i64 then pow2 63 else d.greatest

theorem toInt?_least (d : DType) : (Format.double.ofInt d.least).toInt? = some d.least := by
  cases d with
  | _ => decide +kernel

theorem toInt?_greatest (d : DType) : (Format.double.ofInt d.greatest).toInt? = some d.ceiling := by
  cases d with
  | _ => decide +kernel

/-- Only one number is compared as inside the range and is not. -/
theorem le_ceiling_iff {z : Int} : z ≤ d.ceiling ↔ z ≤ d.greatest ∨ d = .i64 ∧ z = pow2 63 := by
  unfold ceiling
  split
  · rename_i hd
    subst hd
    have hgreatest : DType.i64.greatest = pow2 63 - 1 := by decide
    rw [hgreatest, and_iff_right rfl]
    omega
  · rename_i hd
    simp only [hd, false_and, or_false]

theorem least_le_greatest (d : DType) : d.least ≤ d.greatest := by
  cases d with
  | _ => decide

/-- A number is stored as an integer when it is whole and between the bounds, and what is stored does
not pass the greatest integer. -/
theorem wordOf?_eq_some_iff (hd : d ≠ .f32) {v : Binary} {w : Nat} :
    d.wordOf? v = some w ↔ ∃ z : Int, v.value? = some (z : ℚ) ∧ (d.least ≤ z ∧ z ≤ d.ceiling) ∧
      w = d.ofInt (min z d.greatest) := by
  have hword : d.wordOf? v =
      if v.toInt?.isSome ∧ (Format.double.ofInt d.least).le v ∧
          v.le (Format.double.ofInt d.greatest) then
        some (d.ofInt (v.truncate d.least d.greatest)) else none := by
    cases d with
    | f32 => exact absurd rfl hd
    | _ => rfl
  have hrange : ∀ z : Int, v.value? = some (z : ℚ) →
      ((Format.double.ofInt d.least).le v ∧ v.le (Format.double.ofInt d.greatest) ↔
        d.least ≤ z ∧ z ≤ d.ceiling) := by
    intro z hz
    rw [Binary.le_iff (Binary.toInt?_eq_some_iff.mp d.toInt?_least) hz,
      Binary.le_iff hz (Binary.toInt?_eq_some_iff.mp d.toInt?_greatest), Int.cast_le, Int.cast_le]
  have hstored : ∀ z : Int, v.value? = some (z : ℚ) → d.least ≤ z →
      v.truncate d.least d.greatest = min z d.greatest := by
    intro z hz hleast
    have hbounds := d.least_le_greatest
    rw [Binary.truncate_eq (Binary.toInt?_eq_some_iff.mpr hz)]
    omega
  rw [hword]
  constructor
  · intro h
    split at h
    · rename_i hfits
      obtain ⟨hwhole, hbounds⟩ := hfits
      obtain ⟨z, hz⟩ := Option.isSome_iff_exists.mp hwhole
      have hvalue := Binary.toInt?_eq_some_iff.mp hz
      have hin := (hrange z hvalue).mp hbounds
      rw [hstored z hvalue hin.1] at h
      exact ⟨z, hvalue, hin, (Option.some.inj h).symm⟩
    · cases h
  · rintro ⟨z, hvalue, hin, rfl⟩
    have hwhole : v.toInt?.isSome := by
      rw [Binary.toInt?_eq_some_iff.mpr hvalue]
      rfl
    rw [if_pos ⟨hwhole, (hrange z hvalue).mpr hin⟩, hstored z hvalue hin.1]

/-- Numbers are stored one by one, and all of them or none. -/
theorem wordsOf_eq_ok_iff {values : List Binary} {ws : List Nat} :
    d.wordsOf values = .ok ws ↔ List.Forall₂ (fun v w => d.wordOf? v = some w) values ws := by
  induction values generalizing ws with
  | nil =>
    rw [List.forall₂_nil_left_iff]
    exact ⟨fun h => (Except.ok.inj h).symm, fun h => h ▸ rfl⟩
  | cons v rest ih =>
    rw [wordsOf, List.forall₂_cons_left_iff]
    cases hv : d.wordOf? v with
    | none => exact ⟨nofun, fun ⟨w, _, h, _⟩ => nomatch h⟩
    | some w =>
      cases hrest : d.wordsOf rest with
      | error e =>
        refine ⟨nofun, ?_⟩
        rintro ⟨w', ws', -, hws, -⟩
        rw [ih.mpr hws] at hrest
        cases hrest
      | ok ws' =>
        have hws := ih.mp hrest
        constructor
        · intro h
          exact ⟨w, ws', rfl, hws, (Except.ok.inj h).symm⟩
        · rintro ⟨w', ws'', hw, hws', rfl⟩
          obtain rfl := Option.some.inj hw
          rw [← ih, hrest] at hws'
          rw [Except.ok.inj hws']

/-- What cannot be stored is one of the numbers, and the error names it. -/
theorem wordsOf_error {values : List Binary} {e : TensorFault} (h : d.wordsOf values = .error e) :
    ∃ v ∈ values, d.wordOf? v = none ∧ e = .valueOutOfRange v d := by
  induction values with
  | nil => cases h
  | cons v rest ih =>
    rw [wordsOf] at h
    cases hv : d.wordOf? v with
    | none =>
      rw [hv] at h
      exact ⟨v, List.mem_cons_self, hv, (Except.error.inj h).symm⟩
    | some w =>
      rw [hv] at h
      cases hrest : d.wordsOf rest with
      | ok ws =>
        rw [hrest] at h
        cases h
      | error e' =>
        rw [hrest] at h
        cases h
        obtain ⟨v', hmem, hnone⟩ := ih hrest
        exact ⟨v', List.mem_cons_of_mem v hmem, hnone⟩

end DType

/-! ## Constant data -/

theorem encodeConstant_eq_ok_iff {d : DType} {shape : Shape} {values : List Binary} {data : Packed} :
    encodeConstant d shape values = .ok data ↔
      (shape.bytes? d).isSome ∧ values.length = shape.dims.prod ∧
        ∃ ws, d.wordsOf values = .ok ws ∧ data = Packed.ofElements d.size ws := by
  unfold encodeConstant
  cases hbytes : shape.bytes? d with
  | none => simp
  | some bytes =>
    obtain ⟨count, hcount, -⟩ := Option.bind_eq_some_iff.mp hbytes
    obtain ⟨rfl, -⟩ := Shape.elements?_eq_some_iff.mp hcount
    rw [hcount]
    dsimp only
    by_cases hlength : values.length = shape.dims.prod
    · rw [if_neg (not_not_intro hlength)]
      cases hws : d.wordsOf values with
      | error e =>
        refine ⟨nofun, ?_⟩
        rintro ⟨-, -, ws, hok, -⟩
        cases hok
      | ok ws =>
        constructor
        · intro h
          exact ⟨rfl, hlength, ws, rfl, (Except.ok.inj h).symm⟩
        · rintro ⟨-, -, ws', hok, rfl⟩
          rw [Except.ok.inj hok]
    · rw [if_pos hlength]
      exact ⟨nofun, fun h => absurd h.2.1 hlength⟩

/-- The elements of a constant are the words that its numbers became. -/
theorem elements_ofElements {d : DType} {values : List Binary} {ws : List Nat} (hd : d ≠ .f32)
    (hws : List.Forall₂ (fun v w => d.wordOf? v = some w) values ws) {address : Nat}
    (haddress : 8 ∣ address) :
    Slice.elements ⟨address, (Packed.ofElements d.size ws).toBytes⟩ d d = .ok ws := by
  have hfit : ∀ w ∈ ws, w < 256 ^ d.size := by
    refine forall_of_forall₂ hws.flip fun w v hv => ?_
    obtain ⟨z, -, -, rfl⟩ := (DType.wordOf?_eq_some_iff hd).mp hv
    exact d.ofInt_lt _
  have hbytes : (Packed.ofElements d.size ws).toBytes = Bytes.ofWords d.size ws :=
    Packed.toBytes_ofBytes _
  rw [hbytes, Slice.elements_eq (Nat.dvd_trans d.size_dvd_eight haddress)]
  · rw [Bytes.words_ofWords d.size_pos hfit]
  · rw [Bytes.length_ofWords]
    exact Nat.dvd_mul_left ..

namespace ManifestTensor

variable {t : ManifestTensor} {d : DType} {values : List Binary}

theorem toTensor_eq_ok_iff (hd : DType.ofName? t.dtype = some d) (hdata : t.data = some values)
    {tensor : Tensor} :
    t.toTensor = .ok tensor ↔ ∃ data, encodeConstant d ⟨t.shape⟩ values = .ok data ∧
      tensor = { name := t.name, dtype := d, shape := ⟨t.shape⟩, data := some data,
                 isVariable := t.isVariable } := by
  unfold toTensor
  rw [hd, hdata]
  dsimp only
  cases encodeConstant d ⟨t.shape⟩ values with
  | error e => simp
  | ok data => simp [eq_comm]

/-- The constant data of an integer tensor. An entry whose bytes can be counted becomes a tensor when
it has as many numbers as the shape has elements and each is a whole number of the range of the type;
for 64-bit integers the number after the greatest one is taken too. Then the elements that are read
back, from any address that suits 64-bit words, are these numbers, and for the one number outside the
range the greatest one. -/
theorem toTensor_stores (hd : DType.ofName? t.dtype = some d) (hint : d ≠ .f32)
    (hdata : t.data = some values) :
    ((∃ tensor, t.toTensor = .ok tensor) ↔
      ((⟨t.shape⟩ : Shape).bytes? d).isSome ∧ values.length = t.shape.prod ∧
        ∀ v ∈ values, ∃ z : Int, v.value? = some (z : ℚ) ∧ d.least ≤ z ∧
          (z ≤ d.greatest ∨ d = .i64 ∧ z = pow2 63)) ∧
    ∀ tensor, t.toTensor = .ok tensor →
      tensor.dtype = d ∧ tensor.shape = ⟨t.shape⟩ ∧ ∃ data, tensor.data = some data ∧
        ∀ address, 8 ∣ address → ∃ ws, Slice.elements ⟨address, data.toBytes⟩ d d = .ok ws ∧
          List.Forall₂ (fun v w => ∃ z : Int, v.value? = some (z : ℚ) ∧
            (z ≤ d.greatest → d.toInt w = z) ∧ (d.greatest < z → d.toInt w = d.greatest))
            values ws := by
  refine ⟨⟨?_, ?_⟩, ?_⟩
  · rintro ⟨tensor, htensor⟩
    obtain ⟨data, hencoded, -⟩ := (toTensor_eq_ok_iff hd hdata).mp htensor
    obtain ⟨hbytes, hlength, ws, hws, -⟩ := encodeConstant_eq_ok_iff.mp hencoded
    have hall := DType.wordsOf_eq_ok_iff.mp hws
    refine ⟨hbytes, hlength, forall_of_forall₂ hall fun v w hv => ?_⟩
    obtain ⟨z, hvalue, ⟨hleast, hceiling⟩, -⟩ := (DType.wordOf?_eq_some_iff hint).mp hv
    exact ⟨z, hvalue, hleast, DType.le_ceiling_iff.mp hceiling⟩
  · rintro ⟨hbytes, hlength, hfits⟩
    cases hws : d.wordsOf values with
    | ok ws =>
      exact ⟨_, (toTensor_eq_ok_iff hd hdata).mpr
        ⟨_, encodeConstant_eq_ok_iff.mpr ⟨hbytes, hlength, ws, hws, rfl⟩, rfl⟩⟩
    | error e =>
      obtain ⟨v, hmem, hnone, -⟩ := DType.wordsOf_error hws
      obtain ⟨z, hvalue, hleast, hgreatest⟩ := hfits v hmem
      have hstored := (DType.wordOf?_eq_some_iff hint).mpr
        ⟨z, hvalue, ⟨hleast, DType.le_ceiling_iff.mpr hgreatest⟩, rfl⟩
      rw [hnone] at hstored
      cases hstored
  · intro tensor htensor
    obtain ⟨data, hencoded, rfl⟩ := (toTensor_eq_ok_iff hd hdata).mp htensor
    obtain ⟨-, -, ws, hws, rfl⟩ := encodeConstant_eq_ok_iff.mp hencoded
    have hall := DType.wordsOf_eq_ok_iff.mp hws
    refine ⟨rfl, rfl, _, rfl, fun address haddress =>
      ⟨ws, elements_ofElements hint hall haddress, hall.imp fun v w hv => ?_⟩⟩
    obtain ⟨z, hvalue, ⟨hleast, -⟩, rfl⟩ := (DType.wordOf?_eq_some_iff hint).mp hv
    refine ⟨z, hvalue, fun hle => ?_, fun hlt => ?_⟩
    · rw [min_eq_left hle, DType.toInt_ofInt hleast hle]
    · rw [min_eq_right (le_of_lt hlt), DType.toInt_ofInt d.least_le_greatest (le_refl _)]

/-- Both ends of what doubles have of the range of 64-bit integers, and the negative zero. -/
def extremes : ManifestTensor where
  name := "extremes"
  dtype := "int64"
  shape := [3]
  data := some [.finite true (pow2 52) 11, .finite true 0 (-1074), .finite false (pow2 53 - 1) 10]

theorem toTensor_stores_of_extremes :
    DType.ofName? extremes.dtype = some .i64 ∧ DType.i64 ≠ .f32 ∧
      extremes.data = some [.finite true (pow2 52) 11, .finite true 0 (-1074),
        .finite false (pow2 53 - 1) 10] ∧
      ∃ tensor data ws, extremes.toTensor = .ok tensor ∧ tensor.data = some data ∧
        Slice.elements ⟨16, data.toBytes⟩ .i64 .i64 = .ok ws ∧
        ws.map DType.i64.toInt = [DType.i64.least, 0, DType.i64.greatest - 1023] := by
  have hd : DType.ofName? extremes.dtype = some .i64 := by decide +kernel
  obtain ⟨hok, hstored⟩ := toTensor_stores (t := extremes) hd nofun rfl
  have hwhole : (Binary.finite true (pow2 52) 11).toInt? = some DType.i64.least ∧
      (Binary.finite true 0 (-1074)).toInt? = some 0 ∧
      (Binary.finite false (pow2 53 - 1) 10).toInt? = some (DType.i64.greatest - 1023) := by
    decide +kernel
  obtain ⟨hlow, hzero, hhigh⟩ := hwhole
  obtain ⟨tensor, htensor⟩ := hok.mpr ⟨by decide, rfl, List.forall_mem_cons.mpr
    ⟨⟨_, Binary.toInt?_eq_some_iff.mp hlow, by decide⟩, List.forall_mem_cons.mpr
      ⟨⟨_, Binary.toInt?_eq_some_iff.mp hzero, by decide⟩, List.forall_mem_singleton.mpr
        ⟨_, Binary.toInt?_eq_some_iff.mp hhigh, by decide⟩⟩⟩⟩
  obtain ⟨-, -, data, hdata, helements⟩ := hstored tensor htensor
  obtain ⟨ws, hws, hread⟩ := helements 16 (by decide)
  refine ⟨hd, nofun, rfl, tensor, data, ws, htensor, hdata, hws, ?_⟩
  have hsame : ∀ {v : Binary} {w : Nat} {z : Int}, v.toInt? = some z → z ≤ DType.i64.greatest →
      (∃ z : Int, v.value? = some (z : ℚ) ∧ (z ≤ DType.i64.greatest → DType.i64.toInt w = z) ∧
        (DType.i64.greatest < z → DType.i64.toInt w = DType.i64.greatest)) →
      DType.i64.toInt w = z := by
    rintro v w z hv hle ⟨z', hz', hkept, -⟩
    obtain rfl := Option.some.inj (hv.symm.trans (Binary.toInt?_eq_some_iff.mpr hz'))
    exact hkept hle
  obtain _ | ⟨hfirst, _ | ⟨hsecond, _ | ⟨hthird, ⟨⟩⟩⟩⟩ := hread
  rw [List.map_cons, List.map_cons, List.map_cons, List.map_nil, hsame hlow (by decide) hfirst,
    hsame hzero (by decide) hsecond, hsame hhigh (by decide) hthird]

/-- The number after the greatest 64-bit integer. -/
def pastEnd : ManifestTensor where
  name := "k"
  dtype := "i64"
  shape := [1]
  data := some [.finite false (pow2 52) 11]

/-- It is no number of the range, yet it is stored, and read back as another number. -/
theorem toTensor_of_pastEnd :
    (Binary.finite false (pow2 52) 11).value? = some ((DType.i64.greatest + 1 : Int) : ℚ) ∧
      ∃ tensor data, pastEnd.toTensor = .ok tensor ∧ tensor.data = some data ∧
        (Slice.elements ⟨0, data.toBytes⟩ .i64 .i64).map (List.map DType.i64.toInt) =
          .ok [DType.i64.greatest] := by
  have hstored : pastEnd.toTensor =
      .ok (.constant "k" .i64 ⟨[1]⟩ (Packed.ofElements 8 [pow2 63 - 1])) := by
    decide +kernel
  exact ⟨Binary.toInt?_eq_some_iff.mp (by decide), _, _, hstored, rfl, by decide +kernel⟩

end ManifestTensor

end TensorArena
