import Mathlib.Algebra.Group.Nat.Defs
import TensorArena.Interpreter.Record
import TensorArena.Proofs.Memory.Frame
import TensorArena.Proofs.Tensor.Words

/-!
# Tables read back

A layout is lawful when rows come back from their bytes. `HasTable` says that a memory holds given
rows as a table; writing a table establishes it, and it survives every change outside the bytes of
the table.
-/

namespace TensorArena

/-! ## Words -/

theorem length_wordBytes (w : UInt32) : (wordBytes w).length = 4 :=
  Bytes.length_ofNat ..

/-- A word is read back from the place where its bytes stand. -/
theorem wordAt_append (before after : Bytes) (w : UInt32) :
    wordAt (before ++ (wordBytes w ++ after)) before.length = w := by
  have htake : (wordBytes w ++ after).take 4 = wordBytes w :=
    List.take_left' (length_wordBytes w)
  rw [wordAt, List.drop_left, htake, wordBytes, Bytes.toNat_ofNat]
  apply UInt32.toNat_inj.mp
  have := w.toNat_lt
  rw [UInt32.toNat_ofNat', Nat.mod_eq_of_lt (a := w.toNat) (by omega), Nat.mod_eq_of_lt this]

/-! ## Lawful layouts -/

/-- Rows take the size of the layout and come back from their bytes. -/
structure Layout.Lawful (layout : Layout α) : Prop where
  length_encode : ∀ row, (layout.encode row).length = layout.size
  decode_encode : ∀ row, layout.decode (layout.encode row) = row

theorem Span.layout_lawful : Span.layout.Lawful where
  length_encode s := by simp [Span.layout, length_wordBytes]
  decode_encode s := by
    have h₁ : wordAt (wordBytes s.offset ++ wordBytes s.length) 0 = s.offset :=
      wordAt_append [] _ _
    have h₂ : wordAt (wordBytes s.offset ++ wordBytes s.length) 4 = s.length := by
      have := wordAt_append (wordBytes s.offset) [] s.length
      rwa [List.append_nil, length_wordBytes] at this
    simp only [Span.layout, h₁, h₂]

theorem OpRow.layout_lawful : OpRow.layout.Lawful where
  length_encode r := by
    simp [OpRow.layout, Span.layout, length_wordBytes]
  decode_encode r := by
    obtain ⟨⟨offset, length⟩, first, count⟩ := r
    have h₁ := wordAt_append [] (wordBytes length ++ (wordBytes first ++ wordBytes count)) offset
    have h₂ := wordAt_append (wordBytes offset) (wordBytes first ++ wordBytes count) length
    have h₃ := wordAt_append (wordBytes offset ++ wordBytes length) (wordBytes count) first
    have h₄ := wordAt_append (wordBytes offset ++ wordBytes length ++ wordBytes first) [] count
    simp only [List.append_nil, List.nil_append, List.append_assoc, List.length_append,
      length_wordBytes, List.length_nil, Nat.reduceAdd] at h₁ h₂ h₃ h₄
    simp only [OpRow.layout, Span.layout, List.append_assoc, h₁, h₂, h₃, h₄]

/-! ## Spans of ranges -/

theorem Word.max32_eq : Word.max32 = 4294967295 := rfl

/-- A span that was made has the range it was made of. -/
theorem Span.make_ok {offset length : Nat} {span : Span} (h : Span.make offset length = .ok span) :
    span = ⟨UInt32.ofNat offset, UInt32.ofNat length⟩ ∧ span.range = ⟨offset, length⟩ ∧
      offset + length ≤ Word.max32 := by
  unfold Span.make at h
  split at h
  · cases h
  · rename_i stop hstop
    obtain ⟨-, rfl⟩ : offset + length ≤ Word.max ∧ offset + length = stop := by
      simpa [Word.add?] using hstop
    split at h
    · cases h
    · rename_i hfit
      cases h
      have hle : offset + length ≤ Word.max32 := Nat.le_of_not_lt hfit
      have hmax := Word.max32_eq
      refine ⟨rfl, ?_, hle⟩
      simp only [Span.range, UInt32.toNat_ofNat', ByteRange.mk.injEq]
      exact ⟨Nat.mod_eq_of_lt (by omega), Nat.mod_eq_of_lt (by omega)⟩

theorem Span.make_eq_ok {offset length : Nat} (h : offset + length ≤ Word.max32) :
    Span.make offset length = .ok ⟨UInt32.ofNat offset, UInt32.ofNat length⟩ := by
  have hmax : Word.max32 ≤ Word.max := by decide
  unfold Span.make
  rw [Word.add?, if_pos (by omega)]
  exact if_neg (by omega)

/-- The mark of a tensor without a buffer is odd, so no aligned offset is mistaken for it. -/
theorem Span.isPlaced_of_dvd {span : Span} (h : arenaAlignment ∣ span.range.offset) :
    span.IsPlaced := by
  intro heq
  have hoff : span.range.offset = 4294967295 := congrArg UInt32.toNat heq
  rw [hoff] at h
  revert h
  decide

theorem Span.not_isPlaced_unplaced : ¬ Span.unplaced.IsPlaced :=
  fun h => h rfl

namespace Layout

theorem length_flatMap_encode {layout : Layout α} (hl : layout.Lawful) (rows : List α) :
    (rows.flatMap layout.encode).length = rows.length * layout.size := by
  induction rows with
  | nil => simp
  | cons row rest ih =>
    rw [List.flatMap_cons, List.length_append, hl.length_encode, ih, List.length_cons,
      Nat.succ_mul, Nat.add_comm]

/-- The bytes of row `i` of a table. -/
theorem take_drop_flatMap_encode {layout : Layout α} (hl : layout.Lawful) {rows : List α}
    {i : Nat} {row : α} (h : rows[i]? = some row) :
    ((rows.flatMap layout.encode).drop (i * layout.size)).take layout.size =
      layout.encode row := by
  induction rows generalizing i with
  | nil => simp at h
  | cons first rest ih =>
    cases i with
    | zero =>
      obtain rfl : first = row := by simpa using h
      rw [Nat.zero_mul, List.drop_zero, List.flatMap_cons]
      exact List.take_left' (hl.length_encode _)
    | succ i =>
      rw [List.flatMap_cons, Nat.succ_mul, Nat.add_comm, ← List.drop_drop,
        List.drop_left' (hl.length_encode _)]
      exact ih (by simpa using h)

end Layout

/-! ## Tables in a memory -/

namespace Memory

/-- The bytes of a table of so many rows. -/
def tableRange (layout : Layout α) (table count : Nat) : ByteRange :=
  ⟨table, count * layout.size⟩

/-- The rows are what the memory holds at the place of the table. -/
def HasTable (m : Memory) (layout : Layout α) (table : Nat) (rows : List α) : Prop :=
  (tableRange layout table rows.length).stop ≤ m.size ∧
    m.read table (rows.length * layout.size) = rows.flatMap layout.encode

/-- A table that was written is held. -/
theorem hasTable_write {layout : Layout α} (hl : layout.Lawful) (m : Memory) {table : Nat}
    {rows : List α} (h : (tableRange layout table rows.length).stop ≤ m.size) :
    (m.write table (rows.flatMap layout.encode)).HasTable layout table rows := by
  have hlen := Layout.length_flatMap_encode hl rows
  refine ⟨by rw [size_write]; exact h, ?_⟩
  rw [← hlen]
  refine read_write_self m ?_
  rw [hlen]
  exact h

theorem HasTable.congr {layout : Layout α} {m m' : Memory} {table : Nat} {rows : List α}
    (h : m.HasTable layout table rows)
    (ha : m.AgreeOn m' (tableRange layout table rows.length)) :
    m'.HasTable layout table rows :=
  ⟨by rw [ha.size_eq]; exact h.1, by rw [ha.read_eq]; exact h.2⟩

/-- Row `i` of a table that is held. -/
theorem HasTable.readRow {layout : Layout α} (hl : layout.Lawful) {m : Memory} {table : Nat}
    {rows : List α} (h : m.HasTable layout table rows) {i : Nat} {row : α}
    (hi : rows[i]? = some row) : m.readRow layout table i = .ok row := by
  obtain ⟨hfit, hread⟩ := h
  simp only [tableRange, ByteRange.stop] at hfit
  have hlt : i < rows.length := (List.getElem?_eq_some_iff.mp hi).1
  have hrow : i * layout.size + layout.size ≤ rows.length * layout.size := by
    rw [← Nat.succ_mul]
    exact Nat.mul_le_mul_right _ hlt
  have hbytes : m.read (table + i * layout.size) layout.size = layout.encode row := by
    rw [read_drop_take m hfit hrow, hread]
    exact Layout.take_drop_flatMap_encode hl hi
  rw [Memory.readRow, read?, if_pos (by omega)]
  dsimp only
  rw [hbytes, hl.decode_encode]

end Memory

namespace Layout.Lawful

variable {layout : Layout α}

/-- The bytes that are written are those of the table. -/
theorem range_eq (hl : layout.Lawful) (table : Nat) (rows : List α) :
    ByteRange.mk table (rows.flatMap layout.encode).length =
      Memory.tableRange layout table rows.length := by
  rw [Layout.length_flatMap_encode hl, Memory.tableRange]

/-- What lies apart from a table is as it was before the table was written. -/
theorem agreeOn_write (hl : layout.Lawful) (m : Memory) {table : Nat} {rows : List α} {r : ByteRange}
    (h : (Memory.tableRange layout table rows.length).Apart r) :
    m.AgreeOn (m.write table (rows.flatMap layout.encode)) r := by
  refine m.agreeOn_write (s := Memory.tableRange layout table rows.length) ?_ h
  rw [hl.range_eq]
  exact fun _ hx => hx

end Layout.Lawful

end TensorArena
