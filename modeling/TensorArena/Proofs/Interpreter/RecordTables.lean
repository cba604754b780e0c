import TensorArena.Proofs.Interpreter.Placing

/-!
# Record tables in a shared buffer

Both kinds of rows are written and read at any offset of any buffer. A table that fits is read back row
by row, and all else in the buffer is as it was, the rows of other tables too. A table that does not
fit is refused as a whole: no row of it is written.

All of this follows from `Layout.Lawful`, which says of single rows that they take the size of the
layout and come back from their bytes.
-/

namespace TensorArena

/-- What writing a table of some layout keeps. -/
structure Layout.RoundTrips (layout : Layout α) : Prop where
  /-- A table that fits is written. Its rows come back, and no byte outside of it changes. -/
  write_ok : ∀ (m : Memory) (table : Nat) (rows : List α),
    (Memory.tableRange layout table rows.length).stop ≤ m.size →
    ∃ m', m.writeTable layout table rows = .ok m' ∧ m'.size = m.size ∧
      (∀ i row, rows[i]? = some row → m'.readRow layout table i = .ok row) ∧
      ∀ x, ¬ (Memory.tableRange layout table rows.length).Covers x → m'.get x = m.get x
  /-- The rows of a table of any layout that lies apart are read as before. -/
  write_apart : ∀ (m m' : Memory) (table : Nat) (rows : List α),
    m.writeTable layout table rows = .ok m' →
    ∀ {β : Type} (other : Layout β) (place i : Nat),
      (Memory.tableRange layout table rows.length).Apart ⟨place + i * other.size, other.size⟩ →
      m'.readRow other place i = m.readRow other place i
  /-- A table that does not fit is refused. -/
  write_error : ∀ (m : Memory) (table : Nat) (rows : List α),
    m.size < (Memory.tableRange layout table rows.length).stop →
    m.writeTable layout table rows =
      .error (.outOfBounds table (rows.length * layout.size) m.size)
  /-- A pass that writes such a table fails and leaves everything as it is. -/
  commit_error : ∀ {σ π : Type} (s : Site σ π) (table : Nat) (rows : List α),
    s.memory.size < (Memory.tableRange layout table rows.length).stop →
    (Pass.commitTable layout table rows).exec s = (.error (.arena .allocatorInternal
      (.outOfBounds table (rows.length * layout.size) s.memory.size)), s)

namespace Layout.Lawful

variable {layout : Layout α}

/-- Writing a table is one write, if it fits. -/
theorem writeTable_eq (hl : layout.Lawful) (m : Memory) (table : Nat) (rows : List α) :
    m.writeTable layout table rows =
      if (Memory.tableRange layout table rows.length).stop ≤ m.size then
        .ok (m.write table (rows.flatMap layout.encode))
      else .error (.outOfBounds table (rows.length * layout.size) m.size) := by
  unfold Memory.writeTable
  simp only [Layout.length_flatMap_encode hl]
  rfl

end Layout.Lawful

/-- A row is read alike from memories that agree on its bytes. -/
theorem Memory.AgreeOn.readRow_eq {m m' : Memory} {layout : Layout α} {table i : Nat}
    (h : m.AgreeOn m' ⟨table + i * layout.size, layout.size⟩) :
    m'.readRow layout table i = m.readRow layout table i := by
  simp only [Memory.readRow, Memory.read?, h.size_eq, h.read_eq]

theorem Layout.Lawful.roundTrips {layout : Layout α} (hl : layout.Lawful) : layout.RoundTrips where
  write_ok m table rows hfit := by
    refine ⟨m.write table (rows.flatMap layout.encode), ?_, Memory.size_write .., ?_, ?_⟩
    · rw [hl.writeTable_eq, if_pos hfit]
    · intro i row hrow
      exact (Memory.hasTable_write hl m hfit).readRow hl hrow
    · intro x hx
      refine Memory.get_write_of_not_covers m ?_
      rw [hl.range_eq]
      exact hx
  write_apart m m' table rows hwrite β other place i hapart := by
    rw [hl.writeTable_eq] at hwrite
    split at hwrite
    · cases hwrite
      exact (hl.agreeOn_write m hapart).readRow_eq
    · cases hwrite
  write_error m table rows hover := by
    rw [hl.writeTable_eq, if_neg (Nat.not_le.mpr hover)]
  commit_error s table rows hover := by
    have hrefused : s.store.memory.writeTable layout table rows =
        .error (.outOfBounds table (rows.length * layout.size) s.memory.size) :=
      (hl.writeTable_eq s.memory table rows).trans (if_neg (Nat.not_le.mpr hover))
    simp only [Pass.commitTable, Pass.changeMemory, Pass.exec, ExceptT.run_mk, StateT.run, hrefused]
    rfl

/-- Tables of spans and tables of operator rows come back, at any offset of any buffer, and touch
nothing else. -/
theorem record_tables_round_trip : Span.layout.RoundTrips ∧ OpRow.layout.RoundTrips :=
  ⟨Span.layout_lawful.roundTrips, OpRow.layout_lawful.roundTrips⟩

end TensorArena
