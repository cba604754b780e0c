import TensorArena.Interpreter.Operands
import TensorArena.Proofs.Arena.Positions
import TensorArena.Proofs.Memory.Frame

/-!
# Putting pieces back

Joining pieces writes them one after the other: no byte outside their ranges changes, and a piece that
is apart from the others is read back as it was put in. What a kernel leaves behind is such a join, of
the slices that it may write.
-/

namespace TensorArena

namespace Memory

theorem join_cons (m : Memory) (r : ByteRange) (bytes : Bytes) (rest : List (ByteRange × Bytes)) :
    m.join ((r, bytes) :: rest) = (m.write r.offset (bytes.take r.length)).join rest :=
  rfl

@[simp]
theorem size_join (m : Memory) (pieces : List (ByteRange × Bytes)) :
    (m.join pieces).size = m.size := by
  induction pieces generalizing m with
  | nil => rfl
  | cons p rest ih => rw [join_cons, ih, size_write]

theorem covers_of_covers_take {r : ByteRange} {bytes : Bytes} {x : Nat}
    (h : (ByteRange.mk r.offset (bytes.take r.length).length).Covers x) : r.Covers x := by
  have hle : (bytes.take r.length).length ≤ r.length := List.length_take_le ..
  simp only [ByteRange.Covers, ByteRange.stop] at h ⊢
  omega

theorem get_join_of_not_covers (m : Memory) {pieces : List (ByteRange × Bytes)} {x : Nat}
    (h : ∀ p ∈ pieces, ¬ p.1.Covers x) : (m.join pieces).get x = m.get x := by
  induction pieces generalizing m with
  | nil => rfl
  | cons p rest ih =>
    rw [join_cons, ih _ fun q hq => h q (List.mem_cons_of_mem _ hq)]
    exact get_write_of_not_covers m fun hc => h p List.mem_cons_self (covers_of_covers_take hc)

theorem join_agreeOn (m : Memory) {pieces : List (ByteRange × Bytes)} {r : ByteRange}
    (h : ∀ p ∈ pieces, p.1.Apart r) : m.AgreeOn (m.join pieces) r :=
  ⟨size_join .., fun x hx => m.get_join_of_not_covers fun p hp hc => h p hp x hc hx⟩

/-- A piece that is apart from the others is read back. -/
theorem piece_join (m : Memory) {pieces : List (ByteRange × Bytes)}
    (apart : pieces.Pairwise fun p q => p.1.Apart q.1) {r : ByteRange} {bytes : Bytes}
    (h : (r, bytes) ∈ pieces) (hlen : bytes.length = r.length) (hstop : r.stop ≤ m.size) :
    (m.join pieces).piece r = bytes := by
  induction pieces generalizing m with
  | nil => cases h
  | cons p rest ih =>
    obtain ⟨hfirst, hrest⟩ := List.pairwise_cons.mp apart
    rw [join_cons]
    rcases List.mem_cons.mp h with heq | hmem
    · -- The later pieces do not touch the first one.
      subst heq
      have htake : bytes.take r.length = bytes := by rw [← hlen, List.take_length]
      have hlater := (m.write r.offset (bytes.take r.length)).join_agreeOn
        fun q hq => ByteRange.Apart.symm (hfirst q hq)
      rw [hlater.piece_eq, htake, piece_write_self m hlen hstop]
    · exact ih _ hrest hmem (by rw [size_write]; exact hstop)

/-! ## Slices -/

/-- A slice covers what its range has of the memory. -/
theorem covers_of_covers_slice {m : Memory} {r : ByteRange} {x : Nat}
    (h : (m.slice r).range.Covers x) : r.Covers x := by
  simp only [slice, Slice.range, piece, length_read, ByteRange.Covers, ByteRange.stop] at h ⊢
  omega

theorem range_slice {m : Memory} {r : ByteRange} (h : r.stop ≤ m.size) : (m.slice r).range = r := by
  obtain ⟨offset, length⟩ := r
  simp only [slice, Slice.range, piece, length_read_of_le m h]

/-- What a kernel leaves changes no byte outside the slices that it may write. -/
theorem get_writeBack_of_not_covers (m : Memory) {before after : Operands} {x : Nat}
    (h : ∀ s ∈ before.writable, ¬ s.range.Covers x) : (m.writeBack before after).get x = m.get x := by
  refine m.get_join_of_not_covers fun p hp => ?_
  obtain ⟨hp, -⟩ := List.of_mem_zip hp
  obtain ⟨s, hs, heq⟩ := List.mem_map.mp hp
  rw [← heq]
  exact h s hs

@[simp]
theorem size_writeBack (m : Memory) (before after : Operands) :
    (m.writeBack before after).size = m.size :=
  size_join ..

end Memory

end TensorArena
