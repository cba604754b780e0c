import TensorArena.Interpreter.Access
import TensorArena.Proofs.Interpreter.Bound
import TensorArena.Proofs.Interpreter.Running
import TensorArena.Proofs.Memory.Join

/-!
# What an interpreter can write

Between its passes an interpreter writes only where its allotment lets it: `Reach` holds the offsets
of its own blocks without its tables. Kernels get slices of what the operator claims, and all of that
is within reach; so are the tensors that the owner of the interpreter writes. The tables stay settled.
-/

namespace TensorArena

variable {σ π : Type}

theorem Site.Quiet.memory_eq {s s' : Site σ π} (h : s.Quiet s') : s'.memory = s.memory := by
  rw [memory, h.store_eq]

theorem Site.Ran.memory_eq {k : Kernel σ} {o : Operands} {outcome : Except KernelError Unit}
    {s s' : Site σ π} (h : Site.Ran k o outcome s s') :
    s'.memory = s.memory.writeBack o (k.invoke.run (o, s.outside)).2.1 := by
  rw [Site.memory, h.store_eq, Store.arena_mapMemory]

/-! ## Steps that only write -/

/-- Bytes were written, none but those at certain offsets, and nothing was allocated. -/
structure Site.Wrote (own : Nat → Prop) (s s' : Site σ π) : Prop where
  arena_eq : s'.arena = { s.arena with memory := s'.memory }
  granted_eq : s'.granted = s.granted
  hold_eq : s'.hold = s.hold
  size_eq : s'.memory.size = s.memory.size
  agree : ∀ x, ¬ own x → s'.memory.get x = s.memory.get x

namespace Site.Wrote

variable {own own' : Nat → Prop} {s s' s'' : Site σ π}

theorem of_quiet (h : s.Quiet s') : s.Wrote own s' where
  arena_eq := by
    rw [memory, arena, h.store_eq]
  granted_eq := h.granted_eq
  hold_eq := h.hold_eq
  size_eq := by rw [h.memory_eq]
  agree x _ := by rw [h.memory_eq]

theorem refl (s : Site σ π) : s.Wrote own s :=
  of_quiet (.refl s)

theorem trans (h : s.Wrote own s') (h' : s'.Wrote own s'') : s.Wrote own s'' where
  arena_eq := by rw [h'.arena_eq, h.arena_eq]
  granted_eq := h'.granted_eq.trans h.granted_eq
  hold_eq := h'.hold_eq.trans h.hold_eq
  size_eq := h'.size_eq.trans h.size_eq
  agree x hx := (h'.agree x hx).trans (h.agree x hx)

theorem mono (h : s.Wrote own s') (hown : ∀ x, own x → own' x) : s.Wrote own' s' :=
  { h with agree := fun x hx => h.agree x fun hx' => hx (hown x hx') }

theorem of_store {f : Memory → Memory} (hstore : s'.store = s.store.mapMemory f)
    (hgranted : s'.granted = s.granted) (hhold : s'.hold = s.hold)
    (hsize : (f s.memory).size = s.memory.size)
    (hget : ∀ x, ¬ own x → (f s.memory).get x = s.memory.get x) : s.Wrote own s' := by
  have hmemory : s'.memory = f s.memory := by
    rw [memory, hstore, Store.arena_mapMemory]
  refine ⟨?_, hgranted, hhold, by rw [hmemory, hsize], fun x hx => by rw [hmemory, hget x hx]⟩
  rw [hmemory, arena, hstore, Store.arena_mapMemory]

theorem agreeOn (h : s.Wrote own s') {r : ByteRange} (hr : ∀ x, r.Covers x → ¬ own x) :
    s.memory.AgreeOn s'.memory r :=
  ⟨h.size_eq, fun x hx => h.agree x (hr x hx)⟩

theorem sound (h : s.Wrote own s') (hs : s.Sound) : s'.Sound := by
  obtain ⟨⟨h₁, h₂, h₃⟩, holds, clear⟩ := hs
  refine ⟨⟨?_, ?_, ?_⟩, fun b hb => ?_, ?_⟩
  · rw [h.arena_eq]
    exact h₁
  · rw [h.arena_eq]
    exact h₂
  · rw [h.arena_eq]
    simpa only [Arena.capacity, h.size_eq] using h₃
  · rw [h.granted_eq] at hb
    have := holds b hb
    rw [h.arena_eq]
    simpa only [Arena.Holds, Arena.capacity, h.size_eq] using this
  · rw [h.granted_eq]
    exact clear

end Site.Wrote

namespace Allotment

/-- The offsets that an interpreter may write between its passes. -/
structure Reach (a : Allotment) (x : Nat) : Prop where
  place : x < a.stages.scratch ∨ (a.stages.activations ≤ x ∧ x < a.stages.tensors) ∨
    (a.stages.persistent ≤ x ∧ x < a.stages.operators)
  block : ∃ b ∈ a.blocks, b.range.Covers x

variable {a : Allotment} {g : Graph} {tables : Tables} {m : Memory} {k : Nat} {op : Operator}
  {grant : Grant}

/-! ## What is within reach -/

/-- A tensor whose span is placed has bytes in the arena. -/
theorem Fits.stored_of_isPlaced (h : a.Fits g tables) {id : Nat} {t : Tensor}
    (ht : g.tensors[id]? = some t) (hd : t.data = none) {span : Span}
    (hspan : a.spans[id]? = some span) (hplaced : span.IsPlaced) : g.Stored id t := by
  by_cases hl : ∃ l, g.Planned id l
  · exact ⟨ht, .inr hl⟩
  · cases hv : t.isVariable with
    | true => exact ⟨ht, .inl (Tensor.kind_eq_var hd hv)⟩
    | false =>
      rw [h.activations.other id fun l h => hl ⟨l, h⟩] at hspan
      have hzip : (g.tensors.zip a.vars)[id]? = some (t, span) :=
        List.getElem?_zip_eq_some.mpr ⟨ht, hspan⟩
      have hnone : span = .unplaced := (h.vars.each _ (List.mem_of_getElem? hzip)).unplaced hv
      rw [hnone] at hplaced
      exact absurd hplaced Span.not_isPlaced_unplaced

/-- An activation lies in the block of all activations. -/
theorem Fits.activation_covers (h : a.Fits g tables) {id : Nat} {l : Lifetime} (hl : g.Planned id l)
    {span : Span} (hspan : a.spans[id]? = some span) {x : Nat} (hx : span.range.Covers x) :
    a.activations.Covers x := by
  obtain ⟨_, heq, -, -, hlow, hhigh⟩ := h.activations.placed id l hl
  cases hspan.symm.trans heq
  exact ⟨Nat.le_trans hlow hx.1, Nat.lt_of_lt_of_le hx.2 hhigh⟩

theorem Fits.reach_stored (h : a.Fits g tables) {id : Nat} {t : Tensor} (hs : g.Stored id t)
    {span : Span} (hspan : a.spans[id]? = some span) {x : Nat} (hx : span.range.Covers x) :
    a.Reach x := by
  obtain ⟨_, heq, -, -, -, hlies, -⟩ := h.stored hs
  cases hspan.symm.trans heq
  refine ⟨.inr (.inl (hlies x hx)), ?_⟩
  obtain ⟨ht, hkind | ⟨l, hl⟩⟩ := hs
  · obtain ⟨_, heq, -, -, htook⟩ := h.span_of_var ht hkind
    cases hspan.symm.trans heq
    exact ⟨_, htook.mem, hx⟩
  · have hhome := h.activation_covers hl hspan hx
    rcases h.activations.shared with hempty | htook
    · rw [hempty] at hhome
      exact absurd hhome (ByteRange.not_covers_of_length_eq_zero rfl x)
    · exact ⟨_, htook.mem, hhome⟩

theorem Fits.reach_scratch (h : a.Fits g tables) {span : Span} (hs : span ∈ a.scratch) {x : Nat}
    (hx : span.range.Covers x) : a.Reach x := by
  obtain ⟨-, hstop, hblock, hlow, hhigh⟩ := h.scratch_range hs
  exact ⟨.inl (Nat.lt_of_lt_of_le hx.2 hstop), _, hblock, Nat.le_trans hlow hx.1,
    Nat.lt_of_lt_of_le hx.2 hhigh⟩

theorem Fits.reach_userRange (h : a.Fits g tables) (hg : a.grants[k]? = some grant) {x : Nat}
    (hx : (a.rowOf k grant).userRange.Covers x) : a.Reach x := by
  have hlies := (h.userRange hg).2.1 x hx
  refine ⟨.inr (.inr hlies), ?_⟩
  rw [h.userRange_rowOf hg] at hx
  cases hdata : grant.userData with
  | none =>
    rw [hdata] at hx
    exact absurd hx (ByteRange.not_covers_of_length_eq_zero rfl x)
  | some r =>
    rw [hdata] at hx
    exact ⟨_, ((h.granted.within grant (List.mem_of_getElem? hg)).userData r hdata).mem, hx⟩

/-- All that an operator claims is within reach. -/
theorem Fits.reach_claims (h : a.Fits g tables) (hop : g.operators[k]? = some op)
    (hg : a.grants[k]? = some grant) {r : ByteRange} (hr : r ∈ a.claims g op (a.rowOf k grant))
    {x : Nat} (hx : r.Covers x) : a.Reach x := by
  rcases mem_claims h hg hr with rfl | ⟨o, t, ho, hsrc⟩ | ⟨span, hspan, rfl⟩ | rfl
  · exact absurd hx (ByteRange.not_covers_of_length_eq_zero rfl x)
  · obtain ⟨id, span, rfl, ht, hd, hspan, rfl⟩ := source_eq_placed hsrc
    have hid : id ∈ op.operandIds :=
      List.mem_append.mpr (ho.imp Operator.mem_inputIds.mpr Operator.mem_outputIds.mpr)
    exact h.reach_stored (Graph.stored_of_operand hop hid ht hd) hspan hx
  · exact h.reach_scratch (mem_scratch_of_mem_pieces hspan) hx
  · exact h.reach_userRange hg hx

/-! ## What is not -/

/-- The tables lie between the places within reach. -/
theorem Fits.not_reach_tables (h : a.Fits g tables) {x : Nat}
    (hx : (Memory.tableRange OpRow.layout tables.operators a.rows.length).Covers x ∨
      (Memory.tableRange Span.layout tables.tensors a.spans.length).Covers x ∨
      a.scratch ≠ [] ∧ (Memory.tableRange Span.layout tables.scratch a.scratch.length).Covers x) :
    ¬ a.Reach x := by
  obtain ⟨h₁, h₂, h₃, h₄, h₅, h₆⟩ := h.falling
  rintro ⟨hplace, -⟩
  rcases hx with hx | hx | ⟨hne, hx⟩
  · have hlies := h.operators.lies x hx
    dsimp only at hlies
    omega
  · have hlies := h.tensors.lies x hx
    dsimp only at hlies
    omega
  · have hlies := (h.scratch.took hne).lies x hx
    dsimp only at hlies
    omega

/-- Writes within reach leave the tables settled. -/
theorem Settled.wrote (hs : a.Settled tables m) (h : a.Fits g tables) {s s' : Site σ π}
    (hm : s.memory = m) (hw : s.Wrote a.Reach s') : a.Settled tables s'.memory := by
  subst hm
  exact hs.congr (hw.agreeOn fun x hx => h.not_reach_tables (.inl hx))
    (hw.agreeOn fun x hx => h.not_reach_tables (.inr (.inl hx)))
    fun hne => hw.agreeOn fun x hx => h.not_reach_tables (.inr (.inr ⟨hne, hx⟩))

end Allotment

/-! ## The slices of a kernel -/

/-- The range of an operand in the arena. -/
def Source.range? : Source → Option ByteRange
  | placed _ r => some r
  | _ => none

/-- The range of an operand that is a variable. -/
def Source.varRange? : Source → Option ByteRange
  | placed t r => if t.isVariable then some r else none
  | _ => none

/-- The ranges that a running operator may write. -/
def Sources.writable (b : Sources) (row : OpRow) : List ByteRange :=
  b.inputs.filterMap Source.varRange? ++ b.outputs.filterMap Source.range? ++ b.scratch ++
    [row.userRange]

theorem Memory.writable_operands (m : Memory) (op : Operator) (row : OpRow) (context : Option Int)
    (b : Sources) :
    (m.operands op row context b).writable = (b.writable row).map m.slice := by
  have hinput : (b.inputs.map m.input).filterMap Input.writable =
      (b.inputs.filterMap Source.varRange?).map m.slice := by
    rw [List.filterMap_map, List.map_filterMap]
    congr 1
    funext src
    cases src with
    | absent => rfl
    | constant t d => rfl
    | placed t r =>
      simp only [Function.comp, input, Source.input, Source.varRange?]
      split <;> rfl
  have houtput : (b.outputs.map m.output).filterMap (fun out => out.map (·.2)) =
      (b.outputs.filterMap Source.range?).map m.slice := by
    rw [List.filterMap_map, List.map_filterMap]
    congr 1
    funext src
    cases src <;> rfl
  simp only [Operands.writable, operands, hinput, houtput, Sources.writable, List.map_append,
    List.map_cons, List.map_nil]

theorem Memory.exists_range_of_writable {m : Memory} {op : Operator} {row : OpRow}
    {context : Option Int} {b : Sources} {slice : Slice}
    (h : slice ∈ (m.operands op row context b).writable) :
    ∃ r ∈ b.writable row, slice = m.slice r := by
  rw [writable_operands] at h
  obtain ⟨r, hr, rfl⟩ := List.mem_map.mp h
  exact ⟨r, hr, rfl⟩

/-- Every variable among the inputs claims its range. -/
theorem varRanges_sublist {src : Option Nat → Source} (operands earlier : List (Option Nat)) :
    ((operands.map src).filterMap Source.varRange?).Sublist
      (inputRanges earlier (operands.map fun o => (o, src o))) := by
  induction operands generalizing earlier with
  | nil => exact .slnil
  | cons o rest ih =>
    have hrest := ih (o :: earlier)
    rw [List.map_cons, List.map_cons, inputRanges]
    cases hvar : (src o).varRange? with
    | none =>
      rw [List.filterMap_cons_none hvar]
      exact hrest.cons _
    | some r =>
      have hclaim : (src o).claim earlier o = r := by
        unfold Source.varRange? at hvar
        split at hvar
        · rename_i t r' hsrc
          rw [hsrc]
          split at hvar
          · rename_i hv
            cases hvar
            exact if_neg fun hc => hc.1 hv
          · cases hvar
        · cases hvar
      rw [List.filterMap_cons_some hvar, hclaim]
      exact hrest.cons_cons r

theorem ranges_sublist (sources : List Source) :
    (sources.filterMap Source.range?).Sublist (sources.map Source.range) := by
  induction sources with
  | nil => exact .slnil
  | cons src rest ih =>
    cases src with
    | absent => exact ih.cons _
    | constant t d => exact ih.cons _
    | placed t r => exact ih.cons_cons r

namespace Allotment

variable {a : Allotment} {g : Graph} {tables : Tables} {m : Memory} {k : Nat} {op : Operator}
  {grant : Grant}

/-- A kernel may write nothing that its operator does not claim. -/
theorem writable_sublist (h : a.Fits g tables) (hg : a.grants[k]? = some grant) :
    ((a.sources g op (a.rowOf k grant)).writable (a.rowOf k grant)).Sublist
      (a.claims g op (a.rowOf k grant)) := by
  rw [claims_eq h hg, Sources.writable, List.append_assoc, List.append_assoc]
  refine .append (varRanges_sublist op.inputs []) (.append ?_ (.refl _))
  have houtputs := ranges_sublist (op.outputs.map (a.source g))
  rwa [List.map_map] at houtputs

/-- What was bound, and that it could be bound only because the claims are apart. -/
theorem operands_of_bind (hc : g.Checked) (h : a.Fits g tables) (hs : a.Settled tables m)
    (hop : g.operators[k]? = some op) (hg : a.grants[k]? = some grant) {context : Option Int}
    {o : Operands} (hbind : m.bind g op tables (a.rowOf k grant) context = .ok o) :
    o = m.operands op (a.rowOf k grant) context (a.sources g op (a.rowOf k grant)) ∧
      (a.claims g op (a.rowOf k grant)).Pairwise ByteRange.Apart := by
  obtain ⟨b, hb, -, -, hapart, -, rfl⟩ := Memory.bind_eq_ok_iff.mp hbind
  rw [sources_eq hc h hs hop hg] at hb
  cases hb
  exact ⟨rfl, hapart⟩

/-- A site binds an operator by its row. -/
theorem Settled.bound_eq {s : Site σ π} (hs : a.Settled tables s.memory)
    (hg : a.grants[k]? = some grant) (context : Option Int) :
    s.bound g op tables k context = s.memory.bind g op tables (a.rowOf k grant) context := by
  have hread : s.store.memory.readRow OpRow.layout tables.operators k = .ok (a.rowOf k grant) :=
    hs.row hg
  unfold Site.bound
  rw [hread]
  rfl

/-- What a site binds to an operator, and that its claims are apart. -/
theorem operands_of_bound (hc : g.Checked) (h : a.Fits g tables) {s : Site σ π}
    (hs : a.Settled tables s.memory) (hop : g.operators[k]? = some op) {context : Option Int}
    {o : Operands} (hbound : s.bound g op tables k context = .ok o) :
    ∃ grant, a.grants[k]? = some grant ∧
      o = s.memory.operands op (a.rowOf k grant) context (a.sources g op (a.rowOf k grant)) ∧
      (a.claims g op (a.rowOf k grant)).Pairwise ByteRange.Apart := by
  obtain ⟨grant, hg⟩ := h.exists_grant hop
  rw [hs.bound_eq hg] at hbound
  exact ⟨grant, hg, operands_of_bind hc h hs hop hg hbound⟩

/-- The slices that an operator may write have the ranges that it may write. -/
theorem map_range_writable (h : a.Fits g tables) (hsize : a.stages.start ≤ m.size)
    (hop : g.operators[k]? = some op) (hg : a.grants[k]? = some grant) (context : Option Int) :
    (m.operands op (a.rowOf k grant) context
      (a.sources g op (a.rowOf k grant))).writable.map Slice.range =
        (a.sources g op (a.rowOf k grant)).writable (a.rowOf k grant) := by
  rw [Memory.writable_operands, List.map_map]
  refine (List.map_congr_left fun r hr => ?_).trans (List.map_id _)
  exact Memory.range_slice
    (Nat.le_trans (claims_stop_le h hop hg ((writable_sublist h hg).subset hr)) hsize)

/-- These slices lie within reach. -/
theorem Fits.reach_writable (h : a.Fits g tables) (hop : g.operators[k]? = some op)
    (hg : a.grants[k]? = some grant) {context : Option Int} {slice : Slice}
    (hslice : slice ∈ (m.operands op (a.rowOf k grant) context
      (a.sources g op (a.rowOf k grant))).writable) {x : Nat} (hx : slice.range.Covers x) :
    a.Reach x := by
  obtain ⟨r, hr, rfl⟩ := Memory.exists_range_of_writable hslice
  exact h.reach_claims hop hg ((writable_sublist h hg).subset hr) (Memory.covers_of_covers_slice hx)

/-- A kernel that runs on what was bound writes within reach. -/
theorem wrote_of_ran (hc : g.Checked) (h : a.Fits g tables) {s s' : Site σ π}
    (hs : a.Settled tables s.memory) (hop : g.operators[k]? = some op)
    {kernel : Kernel σ} {context : Option Int} {o : Operands}
    {outcome : Except KernelError Unit} (hbound : s.bound g op tables k context = .ok o)
    (hran : Site.Ran kernel o outcome s s') : s.Wrote a.Reach s' := by
  obtain ⟨grant, hg, rfl, -⟩ := operands_of_bound hc h hs hop hbound
  refine .of_store hran.store_eq hran.granted_eq hran.hold_eq (Memory.size_writeBack ..)
    fun x hx => ?_
  exact Memory.get_writeBack_of_not_covers _ fun slice hslice hcovers =>
    hx (h.reach_writable hop hg hslice hcovers)

end Allotment

end TensorArena
