import TensorArena.Arena.Split

/-!
# Reads over writes

What a memory holds after a write: the written bytes inside the range of the write, and what was
there before everywhere else. The second half lifts this to whole ranges: a range reads alike in two
memories of one size that agree on its offsets, and writes into ranges elsewhere leave it alone.
-/

namespace TensorArena

namespace Memory

/-! ## Single bytes -/

theorem get_set_of_ne (m : Memory) {i j : Nat} (h : j ≠ i) (b : UInt8) :
    (m.set i b).get j = m.get j := by
  by_cases hi : i < m.size
  · rw [get_set m hi, if_neg h]
  · obtain ⟨pages, start, size, stop_le⟩ := m
    rw [set, if_neg hi]

/-- A write leaves every offset outside its range alone, whether it fits or not. -/
theorem get_write_of_not_covers (m : Memory) {offset : Nat} {bytes : Bytes} {x : Nat}
    (h : ¬ (ByteRange.mk offset bytes.length).Covers x) :
    (m.write offset bytes).get x = m.get x := by
  induction bytes generalizing m offset with
  | nil => rfl
  | cons b bs ih =>
    simp only [ByteRange.Covers, ByteRange.stop, List.length_cons] at h ih
    rw [write, ih _ (by omega), get_set_of_ne _ (by omega)]

/-! ## Whole ranges -/

/-- The bytes of a range, as far as the memory has them. -/
def piece (m : Memory) (r : ByteRange) : Bytes :=
  m.read r.offset r.length

/-- The bytes of a range with the address where they are. -/
def slice (m : Memory) (r : ByteRange) : Slice :=
  ⟨r.offset, m.piece r⟩

/-- Two memories of one size that hold the same bytes in a range. -/
structure AgreeOn (m m' : Memory) (r : ByteRange) : Prop where
  size_eq : m'.size = m.size
  get_eq : ∀ x, r.Covers x → m'.get x = m.get x

theorem AgreeOn.trans {m m' m'' : Memory} {r : ByteRange} (h : m.AgreeOn m' r)
    (h' : m'.AgreeOn m'' r) : m.AgreeOn m'' r :=
  ⟨h'.size_eq.trans h.size_eq, fun x hx => (h'.get_eq x hx).trans (h.get_eq x hx)⟩

/-- A write into a range leaves the ranges apart from it alone. -/
theorem agreeOn_write (m : Memory) {offset : Nat} {bytes : Bytes} {r s : ByteRange}
    (hw : ∀ x, (ByteRange.mk offset bytes.length).Covers x → s.Covers x) (h : s.Apart r) :
    m.AgreeOn (m.write offset bytes) r :=
  ⟨size_write .., fun x hx => get_write_of_not_covers m fun hc => h x (hw x hc) hx⟩

theorem AgreeOn.read_eq {m m' : Memory} {offset length : Nat}
    (h : m.AgreeOn m' ⟨offset, length⟩) : m'.read offset length = m.read offset length := by
  simp only [read, h.size_eq]
  refine List.map_congr_left fun x hx => h.get_eq x ?_
  simp only [List.mem_range'_1] at hx
  simp only [ByteRange.Covers, ByteRange.stop]
  omega

theorem AgreeOn.piece_eq {m m' : Memory} {r : ByteRange} (h : m.AgreeOn m' r) :
    m'.piece r = m.piece r :=
  h.read_eq

/-- The bytes of a range inside the memory, one by one. -/
theorem getElem?_read (m : Memory) {offset length : Nat} (h : offset + length ≤ m.size) (k : Nat) :
    (m.read offset length)[k]? = if k < length then some (m.get (offset + k)) else none := by
  have hmin : min length (m.size - offset) = length := Nat.min_eq_left (by omega)
  simp only [read, hmin, List.getElem?_map]
  split
  · rename_i hk
    rw [List.getElem?_range' hk]
    simp
  · rename_i hk
    rw [List.getElem?_eq_none (by simpa using hk)]
    rfl

theorem length_read_of_le (m : Memory) {offset length : Nat} (h : offset + length ≤ m.size) :
    (m.read offset length).length = length := by
  rw [length_read]
  omega

/-- What was written is read back. -/
theorem read_write_self (m : Memory) {offset : Nat} {bytes : Bytes}
    (h : offset + bytes.length ≤ m.size) :
    (m.write offset bytes).read offset bytes.length = bytes := by
  refine List.ext_getElem? fun k => ?_
  rw [getElem?_read _ (by rw [size_write]; exact h)]
  split
  · rename_i hk
    rw [get_write m h, if_pos (Nat.le_add_right ..), Nat.add_sub_cancel_left]
    simp [hk]
  · rename_i hk
    rw [List.getElem?_eq_none (by omega)]

theorem piece_write_self (m : Memory) {r : ByteRange} {bytes : Bytes} (hlen : bytes.length = r.length)
    (h : r.stop ≤ m.size) : (m.write r.offset bytes).piece r = bytes := by
  rw [ByteRange.stop, ← hlen] at h
  rw [piece, ← hlen, read_write_self m h]

/-- Reading inside a range that was read: the same bytes. -/
theorem read_drop_take (m : Memory) {offset length start count : Nat}
    (h : offset + length ≤ m.size) (hc : start + count ≤ length) :
    m.read (offset + start) count = ((m.read offset length).drop start).take count := by
  refine List.ext_getElem? fun k => ?_
  rw [getElem?_read _ (by omega), List.getElem?_take, List.getElem?_drop]
  split
  · rw [getElem?_read _ h, if_pos (by omega), Nat.add_assoc]
  · rfl

end Memory

end TensorArena
