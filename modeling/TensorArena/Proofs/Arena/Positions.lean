import TensorArena.Arena.Split
import TensorArena.Arena.Store

/-!
# The positions of an arena

What one request does to the three positions of an arena, and the order that every request keeps:

    head ≤ watermark ≤ tail ≤ capacity

`allocateHead_ok` and `allocateTail_ok` say everything that a granted request does; nothing after
them opens the two functions again. A store only passes requests on, so the second half carries the
same facts over to stores.
-/

namespace TensorArena

/-! ## Ranges -/

namespace ByteRange

theorem Apart.symm {r s : ByteRange} (h : r.Apart s) : s.Apart r :=
  fun x hs hr => h x hr hs

/-- A range that ends before another one starts shares nothing with it. -/
theorem apart_of_stop_le {r s : ByteRange} (h : r.stop ≤ s.offset) : r.Apart s := by
  rintro x ⟨_, hr⟩ ⟨hs, _⟩
  omega

/-- Parts of ranges that are apart are apart. -/
theorem Apart.mono {r r' s s' : ByteRange} (h : r.Apart s) (hr : ∀ x, r'.Covers x → r.Covers x)
    (hs : ∀ x, s'.Covers x → s.Covers x) : r'.Apart s' :=
  fun x hr' hs' => h x (hr x hr') (hs x hs')

/-- Two ranges that are apart and hold bytes lie one after the other. -/
theorem Apart.le_or_le {r s : ByteRange} (h : r.Apart s) (hr : r.length ≠ 0)
    (hs : s.length ≠ 0) : r.stop ≤ s.offset ∨ s.stop ≤ r.offset := by
  by_cases hle : r.offset ≤ s.offset
  · left
    have := h s.offset
    simp only [Covers, stop] at this ⊢
    omega
  · right
    have := h r.offset
    simp only [Covers, stop] at this ⊢
    omega

theorem not_covers_of_length_eq_zero {r : ByteRange} (h : r.length = 0) (x : Nat) :
    ¬ r.Covers x := by
  rintro ⟨h₁, h₂⟩
  simp only [stop, h] at h₂
  omega

end ByteRange

/-! ## Rounding below an aligned end -/

/-- A block that an aligned tail has room for still has it when it is rounded up. -/
theorem alignUp_le_iff {align tail size : Nat} (hpow : IsPowerOfTwo align) (htail : align ∣ tail) :
    alignUp size align ≤ tail ↔ size ≤ tail := by
  refine ⟨fun hup => Nat.le_trans (le_alignUp hpow size) hup, fun hsize => ?_⟩
  obtain ⟨k, rfl⟩ := htail
  have hpos := hpow.pos
  have hquotient : (size + align - 1) / align < k + 1 :=
    Nat.div_lt_of_lt_mul (by rw [Nat.mul_succ]; omega)
  rw [alignUp_of_isPowerOfTwo hpow, Nat.mul_comm align k]
  exact Nat.mul_le_mul_right align (Nat.le_of_lt_succ hquotient)

/-- Below an aligned tail a block takes its size, rounded up. -/
theorem alignDown_sub_eq {align tail size : Nat} (hpow : IsPowerOfTwo align) (htail : align ∣ tail) :
    alignDown (tail - size) align = tail - alignUp size align := by
  have hup := le_alignUp hpow size
  by_cases hsize : size ≤ tail
  · obtain ⟨k, hk⟩ : align ∣ tail - alignUp size align := Nat.dvd_sub htail (dvd_alignUp hpow size)
    have hfit := (alignUp_le_iff hpow htail).mpr hsize
    have hlt : alignUp size align < size + align := by
      have := alignDown_le (size + align - 1) align
      have := hpow.pos
      unfold alignUp
      omega
    rw [alignDown_of_isPowerOfTwo hpow, hk, Nat.mul_comm align k]
    refine congrArg (· * align) (Nat.div_eq_of_lt_le ?_ ?_)
    · rw [Nat.mul_comm]
      omega
    · rw [Nat.succ_mul, Nat.mul_comm]
      omega
  · have hdown := alignDown_le (tail - size) align
    omega

namespace Arena

/-- A legal alignment divides the alignment of the arena. -/
theorem LegalAlignment.dvd {align : Nat} (h : LegalAlignment align) : align ∣ arenaAlignment := by
  obtain ⟨hp, hle⟩ := h
  have heq : 2 ^ align.log2 = align := hp
  have hlog : align.log2 ≤ 4 := by
    apply (Nat.pow_le_pow_iff_right (a := 2) (by decide)).mp
    rw [heq]
    exact hle
  rw [← hp]
  exact Nat.pow_dvd_pow 2 hlog

/-! ## What a request does -/

/-- A granted request at the head: the block starts at the head, rounded up, and the head moves to
its end. -/
theorem allocateHead_ok {a a' : Arena} {size align offset : Nat}
    (h : a.allocateHead size align = .ok (offset, a')) :
    LegalAlignment align ∧ offset = alignUp a.head align ∧ offset + size ≤ a.tail ∧
      a' = { a with head := offset + size, watermark := max a.watermark (offset + size) } := by
  unfold allocateHead at h
  split at h
  · cases h
  · rename_i hl
    dsimp only at h
    split at h
    · rename_i hfit
      cases h
      exact ⟨Decidable.not_not.mp hl, rfl, hfit, rfl⟩
    · cases h

/-- A granted request at the tail: the block ends below the old tail and starts, rounded down, not
below the watermark; the tail moves to its start. -/
theorem allocateTail_ok {a a' : Arena} {size align offset : Nat}
    (h : a.allocateTail size align = .ok (offset, a')) :
    LegalAlignment align ∧ size ≤ a.tail ∧ offset = alignDown (a.tail - size) align ∧
      a.watermark ≤ offset ∧ a' = { a with tail := offset } := by
  unfold allocateTail at h
  split at h
  · cases h
  · rename_i hl
    split at h
    · rename_i hfit
      cases h
      exact ⟨Decidable.not_not.mp hl, hfit.1, rfl, hfit.2, rfl⟩
    · cases h

/-- With a legal alignment, a request at the head fails when the rounded block would cross the
tail, and only then. -/
theorem allocateHead_error_iff {a : Arena} {size align : Nat} (h : LegalAlignment align) :
    (∃ e, a.allocateHead size align = .error e) ↔
      a.tail < (a.head + align - 1) / align * align + size := by
  rw [← alignUp_of_isPowerOfTwo h.1]
  unfold allocateHead
  rw [if_neg (not_not_intro h)]
  dsimp only
  split
  · simp only [reduceCtorEq, exists_false, false_iff, Nat.not_lt]
    assumption
  · rename_i hfit
    simp only [Except.error.injEq, exists_eq', true_iff]
    omega

/-- With a legal alignment, a request at the tail fails when the rounded block would cross the
watermark, and only then. The start of the block is taken among the integers: it is negative for a
block that is larger than all that lies below the tail. -/
theorem allocateTail_error_iff {a : Arena} {size align : Nat} (h : LegalAlignment align) :
    (∃ e, a.allocateTail size align = .error e) ↔
      ((a.tail : Int) - size) / align * align < a.watermark := by
  have hpos : 0 < align := h.1.pos
  unfold allocateTail
  rw [if_neg (not_not_intro h), alignDown_of_isPowerOfTwo h.1]
  by_cases hsize : size ≤ a.tail
  · have hcast : ((a.tail : Int) - size) / align * align =
        ((a.tail - size) / align * align : Nat) := by
      rw [Int.natCast_mul, Int.natCast_ediv, Int.ofNat_sub hsize]
    rw [hcast]
    split
    · rename_i hfit
      simp only [reduceCtorEq, exists_false, false_iff]
      omega
    · rename_i hfit
      simp only [Except.error.injEq, exists_eq', true_iff]
      omega
  · rw [if_neg (fun hfit => hsize hfit.1)]
    have hneg : ((a.tail : Int) - size) / align < 0 :=
      Int.ediv_neg_of_neg_of_pos (by omega) (by omega)
    have : ((a.tail : Int) - size) / align * align < 0 :=
      Int.mul_neg_of_neg_of_pos hneg (by omega)
    simp only [Except.error.injEq, exists_eq', true_iff]
    omega

/-! ## The order of the positions -/

/-- The positions stand in their order. -/
structure WellKept (a : Arena) : Prop where
  head_le : a.head ≤ a.watermark
  watermark_le : a.watermark ≤ a.tail
  tail_le : a.tail ≤ a.capacity

theorem ofBuffer_wellKept (address : Nat) (buffer : Memory) :
    (ofBuffer address buffer).WellKept where
  head_le := Nat.le_refl _
  watermark_le := Nat.zero_le _
  tail_le := by
    simp only [ofBuffer, capacity, Memory.window]
    have := alignDown_le
      (buffer.size - min ((arenaAlignment - address % arenaAlignment) % arenaAlignment) buffer.size)
      arenaAlignment
    omega

theorem capacity_ofBuffer (address : Nat) (buffer : Memory) :
    (ofBuffer address buffer).capacity = (ofBuffer address buffer).tail := by
  have hdown := alignDown_le
    (buffer.size - min ((arenaAlignment - address % arenaAlignment) % arenaAlignment) buffer.size)
    arenaAlignment
  simp only [capacity, ofBuffer, Memory.window]
  omega

/-- At most a block of the alignment is lost at either end of a buffer. -/
theorem capacity_ofBuffer_of_required {used : Nat} (address : Nat) {buffer : Memory}
    (h : buffer.size = requiredBufferSize used) :
    used ≤ (ofBuffer address buffer).capacity ∧
      (ofBuffer address buffer).capacity ≤ requiredBufferSize used := by
  have hpow : IsPowerOfTwo arenaAlignment := by decide
  have hup := le_alignUp hpow used
  obtain ⟨k, hk⟩ := dvd_alignUp hpow used
  rw [capacity_ofBuffer]
  simp only [ofBuffer, alignDown_of_isPowerOfTwo hpow, h, requiredBufferSize]
  simp only [arenaAlignment] at hk hup ⊢
  omega

theorem WellKept.resetHead {a : Arena} (h : a.WellKept) : a.resetHead.WellKept :=
  ⟨Nat.zero_le _, h.watermark_le, h.tail_le⟩

/-- Where a block lies as seen from the positions: a block of the head ends at the watermark or
before, and a block of the tail lies between the tail and the end of the arena. -/
def Holds (a : Arena) (b : Block) : Prop :=
  match b.region with
  | .head => b.range.stop ≤ a.watermark
  | .tail => a.tail ≤ b.range.offset ∧ b.range.stop ≤ a.capacity

/-- The positions of one arena after those of another: the watermark only rises, and the tail only
falls. -/
structure Later (a a' : Arena) : Prop where
  capacity_eq : a'.capacity = a.capacity
  watermark_le : a.watermark ≤ a'.watermark
  tail_le : a'.tail ≤ a.tail

theorem Later.refl (a : Arena) : a.Later a :=
  ⟨rfl, Nat.le_refl _, Nat.le_refl _⟩

theorem Later.trans {a b c : Arena} (hab : a.Later b) (hbc : b.Later c) : a.Later c :=
  ⟨hbc.capacity_eq.trans hab.capacity_eq, Nat.le_trans hab.watermark_le hbc.watermark_le,
    Nat.le_trans hbc.tail_le hab.tail_le⟩

theorem Later.resetHead (a : Arena) : a.Later a.resetHead :=
  ⟨rfl, Nat.le_refl _, Nat.le_refl _⟩

/-- A block stays on its side of the positions. -/
theorem Holds.later {a a' : Arena} {b : Block} (h : a.Holds b) (hl : a.Later a') : a'.Holds b := by
  have := hl.watermark_le
  have := hl.tail_le
  have := hl.capacity_eq
  unfold Holds at h ⊢
  split <;> rename_i hr <;> rw [hr] at h <;> dsimp only at h
  · omega
  · omega

/-- The bytes that are in use never become fewer. -/
theorem Later.used_le {a a' : Arena} (hl : a.Later a') : a.used ≤ a'.used := by
  have := hl.watermark_le
  have := hl.tail_le
  have := hl.capacity_eq
  unfold used headUsed tailUsed
  omega

/-- What a granted request does, at either end: the arena stays in order, no byte changes, the new
block starts at a multiple of its alignment, and it lies on its side of the new positions. -/
structure Grants (a : Arena) (b : Block) (a' : Arena) : Prop where
  kept : a'.WellKept
  memory_eq : a'.memory = a.memory
  later : a.Later a'
  holds : a'.Holds b
  legal : LegalAlignment b.align
  aligned : b.align ∣ b.range.offset
  /-- A block of the tail lies below the old tail. -/
  stop_le_tail : b.range.stop ≤ a.tail
  /-- A block of the head lies behind the old head and ends at the new one. -/
  head_eq : b.region = .head → a.head ≤ b.range.offset ∧ a'.head = b.range.stop ∧ a'.tail = a.tail
  /-- A block of the tail starts at the new tail. -/
  tail_eq : b.region = .tail → a'.tail = b.range.offset ∧ a'.head = a.head

theorem allocate_ok {a a' : Arena} {region : Region} {size align offset : Nat}
    (h : a.allocate region size align = .ok (offset, a')) (kept : a.WellKept) :
    a.Grants ⟨region, ⟨offset, size⟩, align⟩ a' := by
  have h₁ := kept.head_le
  have h₂ := kept.watermark_le
  have h₃ := kept.tail_le
  cases region with
  | head =>
    obtain ⟨hl, hoff, hfit, rfl⟩ := allocateHead_ok h
    have hup : a.head ≤ offset := hoff ▸ le_alignUp hl.1 a.head
    exact
      { kept := ⟨by dsimp only; omega, by dsimp only; omega, h₃⟩
        memory_eq := rfl
        later := ⟨rfl, by dsimp only; omega, Nat.le_refl _⟩
        holds := by simp only [Holds, ByteRange.stop]; omega
        legal := hl
        aligned := hoff ▸ dvd_alignUp hl.1 _
        stop_le_tail := hfit
        head_eq := fun _ => ⟨hup, rfl, rfl⟩
        tail_eq := nofun }
  | tail =>
    obtain ⟨hl, hsize, hoff, hmark, rfl⟩ := allocateTail_ok h
    have hdown : offset ≤ a.tail - size := hoff ▸ alignDown_le _ _
    exact
      { kept := ⟨h₁, hmark, by simp only [capacity] at h₃ ⊢; omega⟩
        memory_eq := rfl
        later := ⟨rfl, Nat.le_refl _, by dsimp only; omega⟩
        holds := by simp only [Holds, ByteRange.stop, capacity] at h₃ ⊢; omega
        legal := hl
        aligned := hoff ▸ dvd_alignDown hl.1 _
        stop_le_tail := by simp only [ByteRange.stop]; omega
        head_eq := nofun
        tail_eq := fun _ => ⟨rfl, rfl⟩ }

/-- A new block shares nothing with a block of the tail that was there before. -/
theorem Grants.apart_tail {a a' : Arena} {b c : Block} (h : a.Grants b a') (hc : a.Holds c)
    (hr : c.region = .tail) : b.range.Apart c.range := by
  simp only [Holds, hr] at hc
  exact ByteRange.apart_of_stop_le (Nat.le_trans h.stop_le_tail hc.1)

/-- A new block of the tail shares nothing with any block that was there before, whether the head
was rewound since or not. -/
theorem Grants.tail_apart {a a' : Arena} {b c : Block} (h : a.Grants b a') (hc : a.Holds c)
    (hb : b.region = .tail) : b.range.Apart c.range := by
  cases hr : c.region with
  | tail => exact h.apart_tail hc hr
  | head =>
    have hmark := h.kept.watermark_le
    have hle := h.later.watermark_le
    simp only [Holds, hr] at hc
    exact (ByteRange.apart_of_stop_le (by rw [← (h.tail_eq hb).1]; omega)).symm

end Arena

end TensorArena
