import TensorArena.Bytes

/-!
# Memory

The bytes of a buffer, by offset. They lie in pages of a fixed size, so that a large buffer of equal
bytes is one page that all places share, and a write renews only the page that it touches. A memory
is a window on its pages; a part of a buffer is a narrower window on the same pages.

What a memory holds is what `get` gives. The laws of `set`, `write`, `replicate` and `window` say it
offset by offset.
-/

namespace TensorArena

def pageSize : Nat := 256

/-- Every position has a place in its page. -/
theorem pageSize_pos : 0 < pageSize := by decide

abbrev Page := Vector UInt8 pageSize

/-- The page that a position lies in. -/
def pageOf (position : Nat) : Nat :=
  position / pageSize

/-- Where in its page a position lies. -/
def placeOf (position : Nat) : Fin pageSize :=
  ⟨position % pageSize, Nat.mod_lt _ pageSize_pos⟩

/-- Positions in one place of one page are one position. -/
theorem eq_of_pageOf_eq {p q : Nat} (page : pageOf p = pageOf q) (place : placeOf p = placeOf q) :
    p = q := by
  have rest : p % pageSize = q % pageSize := congrArg Fin.val place
  rw [← Nat.div_add_mod p pageSize, rest, show p / pageSize = q / pageSize from page,
    Nat.div_add_mod]

/-- Bytes by offset: `size` of them from `start` on. -/
structure Memory where
  pages : Array Page
  start : Nat
  size : Nat
  stop_le : start + size ≤ pages.size * pageSize

namespace Memory

/-- A memory of equal bytes. -/
def replicate (size : Nat) (b : UInt8) : Memory where
  pages := Array.replicate ((size + pageSize - 1) / pageSize) (Vector.replicate pageSize b)
  start := 0
  size := size
  stop_le := by
    have := Nat.div_add_mod (size + pageSize - 1) pageSize
    have := Nat.mod_lt (size + pageSize - 1) pageSize_pos
    rw [Array.size_replicate, Nat.mul_comm]
    omega

/-- The byte at an offset; zero past the end of the pages. -/
def get (m : Memory) (i : Nat) : UInt8 :=
  match m.pages[pageOf (m.start + i)]? with
  | some page => page[placeOf (m.start + i)]
  | none => 0

/-- Another byte at an offset, if the memory has it. -/
def set : Memory → (i : Nat) → (b : UInt8) → Memory
  | ⟨pages, start, size, stop_le⟩, i, b =>
    if i < size then
      ⟨pages.modify (pageOf (start + i)) fun page => page.set (placeOf (start + i)) b, start, size,
        by rw [Array.size_modify]; exact stop_le⟩
    else ⟨pages, start, size, stop_le⟩

/-- The bytes of `[offset, offset + length)`, as far as the memory has them. -/
def read (m : Memory) (offset length : Nat) : Bytes :=
  (List.range' offset (min length (m.size - offset))).map m.get

/-- The bytes of `[offset, offset + length)`, if the memory has them all. -/
def read? (m : Memory) (offset length : Nat) : Option Bytes :=
  if offset + length ≤ m.size then some (m.read offset length) else none

/-- Writes `bytes` from `offset` on; bytes past the end of the memory are dropped. -/
def write (m : Memory) (offset : Nat) : Bytes → Memory
  | [] => m
  | b :: bs => write (m.set offset b) (offset + 1) bs

/-- The part of a memory that starts at `offset`, with `length` bytes or as many as there are. -/
def window (m : Memory) (offset length : Nat) : Memory where
  pages := m.pages
  start := m.start + min offset m.size
  size := min length (m.size - offset)
  stop_le := by
    have := m.stop_le
    omega

def ofBytes (bytes : Bytes) : Memory :=
  (replicate bytes.length 0).write 0 bytes

def toBytes (m : Memory) : Bytes :=
  m.read 0 m.size

/-! ## What a memory holds -/

@[simp]
theorem size_set (m : Memory) (i : Nat) (b : UInt8) : (m.set i b).size = m.size := by
  cases m
  rw [set]
  split <;> rfl

@[simp]
theorem size_write (m : Memory) (offset : Nat) (bytes : Bytes) :
    (m.write offset bytes).size = m.size := by
  induction bytes generalizing m offset with
  | nil => rfl
  | cons b bs ih => rw [write, ih, size_set]

/-- The page of an offset exists. -/
theorem pageOf_lt (m : Memory) {i : Nat} (h : i < m.size) :
    pageOf (m.start + i) < m.pages.size := by
  have := m.stop_le
  exact Nat.div_lt_of_lt_mul (by rw [Nat.mul_comm]; omega)

/-- Setting a byte changes that byte and nothing else. -/
theorem get_set (m : Memory) {i : Nat} (h : i < m.size) (b : UInt8) (j : Nat) :
    (m.set i b).get j = if j = i then b else m.get j := by
  have page := m.pageOf_lt h
  obtain ⟨pages, start, size, stop_le⟩ := m
  simp only at h page
  rw [set, if_pos h]
  simp only [get, Array.getElem?_modify]
  by_cases samePage : pageOf (start + i) = pageOf (start + j)
  · rw [if_pos samePage, ← samePage, Array.getElem?_eq_getElem page]
    simp only [Option.map_some, Fin.getElem_fin, Vector.getElem_set]
    by_cases samePlace : placeOf (start + i) = placeOf (start + j)
    · have same := eq_of_pageOf_eq samePage samePlace
      rw [if_pos (congrArg Fin.val samePlace), if_pos (by omega)]
    · have apart : ¬ j = i := fun same => samePlace (by rw [same])
      rw [if_neg fun same => samePlace (Fin.ext same), if_neg apart]
  · have apart : ¬ j = i := fun same => samePage (by rw [same])
    rw [if_neg samePage, if_neg apart]

/-- A write changes its own range and nothing else. -/
theorem get_write (m : Memory) {offset : Nat} {bytes : Bytes}
    (h : offset + bytes.length ≤ m.size) (j : Nat) :
    (m.write offset bytes).get j =
      if offset ≤ j then bytes[j - offset]?.getD (m.get j) else m.get j := by
  induction bytes generalizing m offset with
  | nil => simp [write]
  | cons b bs ih =>
    rw [List.length_cons] at h
    rw [write, ih _ (by rw [size_set]; omega), get_set m (by omega)]
    by_cases first : j = offset
    · simp [first, show ¬ offset + 1 ≤ offset by omega]
    · by_cases before : offset ≤ j
      · have next : j - offset = (j - (offset + 1)) + 1 := by omega
        simp [first, before, next, show offset + 1 ≤ j by omega]
      · simp [first, before, show ¬ offset + 1 ≤ j by omega]

theorem get_window (m : Memory) {offset length i : Nat} (h : i < (m.window offset length).size) :
    (m.window offset length).get i = m.get (offset + i) := by
  have inside : offset ≤ m.size := by
    simp only [window] at h
    omega
  simp only [get, window, Nat.min_eq_left inside, Nat.add_assoc]

@[simp]
theorem length_read (m : Memory) (offset length : Nat) :
    (m.read offset length).length = min length (m.size - offset) := by
  simp [read]

end Memory

end TensorArena
