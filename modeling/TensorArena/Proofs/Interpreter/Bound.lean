import TensorArena.Proofs.Interpreter.Binding
import TensorArena.Proofs.Interpreter.Regions

/-!
# Binding never fails

While the tables are settled, binding reads back from them what the allotment says, and the ranges
that an operator claims are in bounds and apart: its operands are alive together, its scratch blocks
are its own, and variables, activations, persistent data and scratch blocks come from different
stretches of the arena.
-/

namespace TensorArena

theorem mapM_eq_ok {f : α → Except ε β} {h : α → β} {l : List α} (hf : ∀ a ∈ l, f a = .ok (h a)) :
    l.mapM f = .ok (l.map h) := by
  induction l with
  | nil => rfl
  | cons a rest ih =>
    rw [List.mapM_cons, hf a List.mem_cons_self, ih fun b hb => hf b (List.mem_cons_of_mem _ hb)]
    rfl

namespace Operator

theorem mem_inputIds {op : Operator} {id : Nat} : id ∈ op.inputIds ↔ some id ∈ op.inputs := by
  simp [inputIds]

theorem mem_outputIds {op : Operator} {id : Nat} : id ∈ op.outputIds ↔ some id ∈ op.outputs := by
  simp [outputIds]

end Operator

/-- An operand without a range claims no bytes. -/
theorem Source.range_eq (src : Source) : src.range = .empty ∨ ∃ t r, src = .placed t r ∧ src.range = r := by
  cases src with
  | absent => exact .inl rfl
  | constant t d => exact .inl rfl
  | placed t r => exact .inr ⟨t, r, rfl, rfl⟩

namespace ByteRange

theorem empty_apart (r : ByteRange) : empty.Apart r :=
  fun x hx => absurd hx (not_covers_of_length_eq_zero rfl x)

theorem apart_empty (r : ByteRange) : r.Apart empty :=
  (empty_apart r).symm

end ByteRange

/-! ## The claims of inputs -/

/-- An input claims its range once: with `src` giving the source of every operand, each claimed range
is empty, or that of an operand which is a variable or was not read before. -/
theorem mem_inputRanges {src : Option Nat → Source} {operands : List (Option Nat)}
    {earlier : List (Option Nat)} {r : ByteRange}
    (h : r ∈ inputRanges earlier (operands.map fun o => (o, src o))) :
    r = .empty ∨
      ∃ o ∈ operands, ∃ t, src o = .placed t r ∧ (t.isVariable = true ∨ o ∉ earlier) := by
  induction operands generalizing earlier with
  | nil => cases h
  | cons o rest ih =>
    rw [List.map_cons, inputRanges] at h
    rcases List.mem_cons.mp h with rfl | hr
    · cases hsrc : src o with
      | absent => exact .inl rfl
      | constant t d => exact .inl rfl
      | placed t r =>
        rw [Source.claim]
        split
        · exact .inl rfl
        · rename_i hkeep
          refine .inr ⟨o, List.mem_cons_self, t, hsrc, ?_⟩
          by_cases hv : t.isVariable = true
          · exact .inl hv
          · exact .inr fun hm => hkeep ⟨hv, hm⟩
    · refine (ih hr).imp_right ?_
      rintro ⟨o', ho', t, hsrc, hor⟩
      exact ⟨o', List.mem_cons_of_mem _ ho', t, hsrc,
        hor.imp_right fun hn hm => hn (List.mem_cons_of_mem _ hm)⟩

theorem inputRanges_apart {src : Option Nat → Source} {operands : List (Option Nat)}
    (earlier : List (Option Nat))
    (once : operands.Pairwise fun o o' => o = o' → ∀ t r, src o = .placed t r → ¬ t.isVariable)
    (apart : ∀ o ∈ operands, ∀ o' ∈ operands, o ≠ o' → ∀ t r t' r', src o = .placed t r →
      src o' = .placed t' r' → r.Apart r') :
    (inputRanges earlier (operands.map fun o => (o, src o))).Pairwise ByteRange.Apart := by
  induction operands generalizing earlier with
  | nil => exact .nil
  | cons o rest ih =>
    obtain ⟨hfirst, hrest⟩ := List.pairwise_cons.mp once
    have hih := ih (o :: earlier) hrest fun p hp q hq =>
      apart p (List.mem_cons_of_mem _ hp) q (List.mem_cons_of_mem _ hq)
    rw [List.map_cons, inputRanges]
    refine List.pairwise_cons.mpr ⟨fun r' hr' => ?_, hih⟩
    cases hsrc : src o with
    | absent => exact ByteRange.empty_apart r'
    | constant t d => exact ByteRange.empty_apart r'
    | placed t r =>
      rw [Source.claim]
      split
      · exact ByteRange.empty_apart r'
      · rcases mem_inputRanges hr' with rfl | ⟨o', ho', t', hsrc', hor⟩
        · exact ByteRange.apart_empty r
        · refine apart o List.mem_cons_self o' (List.mem_cons_of_mem _ ho') ?_ t r t' r' hsrc hsrc'
          rintro rfl
          rcases hor with hv | hn
          · exact hfirst o ho' rfl t' r' hsrc' hv
          · exact hn List.mem_cons_self

namespace Allotment

/-- Where an operand comes from, by the allotment. -/
def source (a : Allotment) (g : Graph) : Option Nat → Source
  | none => .absent
  | some id =>
    match g.tensors[id]?, a.spans[id]? with
    | some t, some span =>
      match t.data with
      | some data => .constant t data
      | none => .placed t span.range
    | _, _ => .absent

/-- What the tables say about an operator, by the allotment. -/
def sources (a : Allotment) (g : Graph) (op : Operator) (row : OpRow) : Sources where
  inputs := op.inputs.map (a.source g)
  outputs := op.outputs.map (a.source g)
  scratch := (a.pieces row).map Span.range

variable {a : Allotment} {g : Graph} {tables : Tables} {m : Memory} {k : Nat} {op : Operator}
  {grant : Grant}

theorem source_eq_placed {o : Option Nat} {t : Tensor} {r : ByteRange}
    (h : a.source g o = .placed t r) :
    ∃ id span, o = some id ∧ g.tensors[id]? = some t ∧ t.data = none ∧ a.spans[id]? = some span ∧
      span.range = r := by
  unfold source at h
  split at h
  · cases h
  · rename_i id
    split at h
    · rename_i t' span ht hspan
      split at h
      · cases h
      · rename_i hd
        cases h
        exact ⟨id, span, rfl, ht, hd, hspan, rfl⟩
    · cases h

/-! ## Reading the tables -/

theorem Settled.tensorRange (hs : a.Settled tables m) {id : Nat} {span : Span}
    (hspan : a.spans[id]? = some span) (hplaced : span.IsPlaced) :
    m.tensorRange tables id = .ok span.range := by
  unfold Memory.tensorRange
  rw [hs.tensors.readRow Span.layout_lawful hspan]
  exact if_pos hplaced

theorem Settled.row (hs : a.Settled tables m) (hg : a.grants[k]? = some grant) :
    m.readRow OpRow.layout tables.operators k = .ok (a.rowOf k grant) :=
  hs.operators.readRow OpRow.layout_lawful (getElem?_rows hg)

/-- An operand without data is found where the allotment put it. -/
theorem tensorRange_operand (h : a.Fits g tables) (hs : a.Settled tables m)
    (hop : g.operators[k]? = some op) {id : Nat} (hid : id ∈ op.operandIds) {t : Tensor}
    (ht : g.tensors[id]? = some t) (hd : t.data = none) :
    ∃ span, a.spans[id]? = some span ∧ m.tensorRange tables id = .ok span.range := by
  obtain ⟨span, hspan, hplaced, -⟩ := h.stored (Graph.stored_of_operand hop hid ht hd)
  exact ⟨span, hspan, hs.tensorRange hspan hplaced⟩

theorem inputSource_eq (hc : g.Checked) (h : a.Fits g tables) (hs : a.Settled tables m)
    (hop : g.operators[k]? = some op) {o : Option Nat} (ho : o ∈ op.inputs) :
    m.inputSource g tables o = .ok (a.source g o) := by
  cases o with
  | none => rfl
  | some id =>
    have hid : id ∈ op.operandIds := List.mem_append_left _ (Operator.mem_inputIds.mpr ho)
    obtain ⟨t, ht⟩ := hc.exists_operand (List.mem_of_getElem? hop) hid
    obtain ⟨span, hspan⟩ := h.exists_span ht
    unfold Memory.inputSource source
    dsimp only
    rw [ht, hspan]
    dsimp only
    cases hd : t.data with
    | some d => rfl
    | none =>
      obtain ⟨_, hspan', hrange⟩ := tensorRange_operand h hs hop hid ht hd
      cases hspan.symm.trans hspan'
      dsimp only
      rw [hrange]
      rfl

theorem outputSource_eq (hc : g.Checked) (h : a.Fits g tables) (hs : a.Settled tables m)
    (hop : g.operators[k]? = some op) {o : Option Nat} (ho : o ∈ op.outputs) :
    m.outputSource g tables o = .ok (a.source g o) := by
  cases o with
  | none => rfl
  | some id =>
    have hout := Operator.mem_outputIds.mpr ho
    obtain ⟨⟨t, ht, hkind⟩, -⟩ := hc.write k op hop id hout
    obtain ⟨hd, -⟩ := Tensor.data_of_kind_activation hkind
    obtain ⟨span, hspan, hrange⟩ :=
      tensorRange_operand h hs hop (List.mem_append_right _ hout) ht hd
    unfold Memory.outputSource source
    dsimp only
    rw [ht, hspan]
    dsimp only
    rw [hd, hrange]
    rfl

theorem scratchRanges_eq (h : a.Fits g tables) (hs : a.Settled tables m)
    (hg : a.grants[k]? = some grant) :
    m.scratchRanges tables (a.rowOf k grant) =
      .ok ((a.pieces (a.rowOf k grant)).map Span.range) := by
  have hin := h.pieces_in_table hg
  have hcount := toNat_scratchCount (a := a) (k := k) (h.scratch_le hg)
  have hle := h.scratch_le hg
  generalize hrow : a.rowOf k grant = row at hin hcount ⊢
  have hread : ∀ j ∈ List.range row.scratchCount.toNat,
      (m.readRow Span.layout tables.scratch (row.scratchFirst.toNat + j)).mapError
        ExecutionError.memory = .ok (a.scratch[row.scratchFirst.toNat + j]?.getD .unplaced) := by
    intro j hj
    have hlt : row.scratchFirst.toNat + j < a.scratch.length := by
      have := List.mem_range.mp hj
      omega
    have hne : a.scratch ≠ [] := by
      rintro hnil
      rw [hnil] at hlt
      exact Nat.not_lt_zero _ hlt
    have hspan := List.getElem?_eq_getElem hlt
    rw [(hs.scratch hne).readRow Span.layout_lawful hspan, hspan]
    rfl
  have hpieces : (List.range row.scratchCount.toNat).map
      (fun j => a.scratch[row.scratchFirst.toNat + j]?.getD .unplaced) = a.pieces row := by
    refine List.ext_getElem? fun j => ?_
    rw [pieces, List.getElem?_map, List.getElem?_take, List.getElem?_drop]
    by_cases hj : j < row.scratchCount.toNat
    · have hlt : row.scratchFirst.toNat + j < a.scratch.length := by omega
      rw [List.getElem?_range hj, if_pos hj, Option.map_some, List.getElem?_eq_getElem hlt]
      rfl
    · rw [if_neg hj, List.getElem?_eq_none (by simpa using hj)]
      rfl
  unfold Memory.scratchRanges
  dsimp only
  rw [Nat.min_eq_left (by omega), mapM_eq_ok hread, hpieces]
  exact if_neg (by omega)

theorem sources_eq (hc : g.Checked) (h : a.Fits g tables) (hs : a.Settled tables m)
    (hop : g.operators[k]? = some op) (hg : a.grants[k]? = some grant) :
    m.sources g op tables (a.rowOf k grant) = .ok (a.sources g op (a.rowOf k grant)) := by
  unfold Memory.sources
  rw [mapM_eq_ok fun o ho => inputSource_eq hc h hs hop ho,
    mapM_eq_ok fun o ho => outputSource_eq hc h hs hop ho, scratchRanges_eq h hs hg]
  rfl

/-! ## The claims of an operator -/

/-- Different operands of one operator are apart: it needs them at the same time. -/
theorem operands_apart (h : a.Fits g tables) (hop : g.operators[k]? = some op)
    {o o' : Option Nat} (ho : o ∈ op.inputs ∨ o ∈ op.outputs)
    (ho' : o' ∈ op.inputs ∨ o' ∈ op.outputs) (hne : o ≠ o') {t t' : Tensor} {r r' : ByteRange}
    (hsrc : a.source g o = .placed t r) (hsrc' : a.source g o' = .placed t' r') : r.Apart r' := by
  have operand : ∀ {id : Nat}, some id ∈ op.inputs ∨ some id ∈ op.outputs → id ∈ op.operandIds :=
    fun hor => List.mem_append.mpr (hor.imp Operator.mem_inputIds.mpr Operator.mem_outputIds.mpr)
  obtain ⟨id, span, rfl, ht, hd, hspan, rfl⟩ := source_eq_placed hsrc
  obtain ⟨id', span', rfl, ht', hd', hspan', rfl⟩ := source_eq_placed hsrc'
  have hid := operand ho
  have hid' := operand ho'
  refine h.stored_apart (Graph.stored_of_operand hop hid ht hd)
    (Graph.stored_of_operand hop hid' ht' hd') (fun heq => hne (by rw [heq])) ?_ hspan hspan'
  intro l l' hl hl'
  exact Lifetime.overlaps_of_aliveAt
    (hl.aliveAt (Graph.mem_touches.mpr (.inr (.inl ⟨op, hop, hid⟩))))
    (hl'.aliveAt (Graph.mem_touches.mpr (.inr (.inl ⟨op, hop, hid'⟩))))

/-- Where an operand lies. -/
theorem operand_range (h : a.Fits g tables) (hop : g.operators[k]? = some op) {o : Option Nat}
    (ho : o ∈ op.inputs ∨ o ∈ op.outputs) {t : Tensor} {r : ByteRange}
    (hsrc : a.source g o = .placed t r) :
    r.length = t.size ∧ arenaAlignment ∣ r.offset ∧ r.Lies a.stages.activations a.stages.tensors ∧
      r.stop ≤ a.stages.start := by
  obtain ⟨id, span, rfl, ht, hd, hspan, rfl⟩ := source_eq_placed hsrc
  have hid : id ∈ op.operandIds :=
    List.mem_append.mpr (ho.imp Operator.mem_inputIds.mpr Operator.mem_outputIds.mpr)
  obtain ⟨_, hspan', -, h₁, h₂, h₃, h₄⟩ := h.stored (Graph.stored_of_operand hop hid ht hd)
  cases hspan.symm.trans hspan'
  exact ⟨h₁, h₂, h₃, h₄⟩

/-- No variable is among the inputs of an operator twice. -/
theorem inputs_once (hc : g.Checked) (hop : g.operators[k]? = some op) :
    op.inputs.Pairwise fun o o' => o = o' →
      ∀ t r, a.source g o = .placed t r → ¬ t.isVariable = true := by
  have hrepeated := hc.repeated op (List.mem_of_getElem? hop)
  rw [Operator.inputIds, List.pairwise_filterMap] at hrepeated
  refine hrepeated.imp ?_
  rintro o o' hrel rfl t r hsrc hv
  obtain ⟨id, span, rfl, ht, hd, -⟩ := source_eq_placed hsrc
  exact hrel id rfl id rfl rfl t ht (Tensor.kind_eq_var hd hv)

/-- The claims of an operator, by the allotment. -/
def claims (a : Allotment) (g : Graph) (op : Operator) (row : OpRow) : List ByteRange :=
  (a.sources g op row).claims op row

theorem claims_eq (h : a.Fits g tables) (hg : a.grants[k]? = some grant) :
    a.claims g op (a.rowOf k grant) =
      inputRanges [] (op.inputs.map fun o => (o, a.source g o)) ++
        (op.outputs.map (fun o => (a.source g o).range) ++
        ((a.pieces (a.rowOf k grant)).map Span.range ++ [(a.rowOf k grant).userRange])) := by
  have hlen : (a.sources g op (a.rowOf k grant)).scratch.length ≤ maxScratch := by
    rw [sources, List.length_map, h.length_pieces hg]
    exact h.scratch_le hg
  rw [claims, Sources.claims_eq rfl hlen, sources, List.map_map]
  rfl

theorem mem_outputClaims {r : ByteRange} (hr : r ∈ op.outputs.map fun o => (a.source g o).range) :
    r = .empty ∨ ∃ o t, o ∈ op.outputs ∧ a.source g o = .placed t r := by
  obtain ⟨o, ho, rfl⟩ := List.mem_map.mp hr
  refine (a.source g o).range_eq.imp_right ?_
  rintro ⟨t, r, hsrc, hrange⟩
  exact ⟨o, t, ho, hrange ▸ hsrc⟩

/-- What an operator claims: the ranges of its operands, of its scratch blocks and of its persistent
data. -/
theorem mem_claims (h : a.Fits g tables) (hg : a.grants[k]? = some grant) {r : ByteRange}
    (hr : r ∈ a.claims g op (a.rowOf k grant)) :
    r = .empty ∨ (∃ o t, (o ∈ op.inputs ∨ o ∈ op.outputs) ∧ a.source g o = .placed t r) ∨
      (∃ span ∈ a.pieces (a.rowOf k grant), span.range = r) ∨
      r = (a.rowOf k grant).userRange := by
  rw [claims_eq h hg, List.mem_append, List.mem_append, List.mem_append] at hr
  rcases hr with hr | hr | hr | hr
  · refine (mem_inputRanges hr).imp_right ?_
    rintro ⟨o, ho, t, hsrc, -⟩
    exact .inl ⟨o, t, .inl ho, hsrc⟩
  · refine (mem_outputClaims hr).imp_right ?_
    rintro ⟨o, t, ho, hsrc⟩
    exact .inl ⟨o, t, .inr ho, hsrc⟩
  · exact .inr (.inr (.inl (List.mem_map.mp hr)))
  · exact .inr (.inr (.inr (List.mem_singleton.mp hr)))

theorem claims_stop_le (h : a.Fits g tables) (hop : g.operators[k]? = some op)
    (hg : a.grants[k]? = some grant) {r : ByteRange}
    (hr : r ∈ a.claims g op (a.rowOf k grant)) : r.stop ≤ a.stages.start := by
  obtain ⟨h₁, h₂, h₃, h₄, h₅, h₆⟩ := h.falling
  rcases mem_claims h hg hr with rfl | ⟨o, t, ho, hsrc⟩ | ⟨span, hspan, rfl⟩ | rfl
  · exact Nat.zero_le _
  · exact (operand_range h hop ho hsrc).2.2.2
  · have := (h.scratch_range (mem_scratch_of_mem_pieces hspan)).2.1
    omega
  · exact (h.userRange hg).2.2

theorem length_claims_le (h : a.Fits g tables) (hg : a.grants[k]? = some grant)
    (hin : op.inputs.length ≤ maxOperands) (hout : op.outputs.length ≤ maxOperands) :
    (a.claims g op (a.rowOf k grant)).length ≤ maxOperands + maxOperands + maxScratch + 1 := by
  have hscratch := h.scratch_le hg
  rw [claims_eq h hg]
  simp only [List.length_append, length_inputRanges, List.length_map, h.length_pieces hg,
    List.length_singleton]
  omega

/-! Each of the following says of one kind of claim that it is apart from the ones behind it. -/

theorem outputs_apart (hc : g.Checked) (h : a.Fits g tables) (hop : g.operators[k]? = some op) :
    (op.outputs.map fun o => (a.source g o).range).Pairwise ByteRange.Apart := by
  have hnodup := hc.written_once op (List.mem_of_getElem? hop)
  rw [Operator.outputIds, List.nodup_iff_pairwise_ne, List.pairwise_filterMap] at hnodup
  rw [List.pairwise_map]
  refine hnodup.imp_of_mem ?_
  intro o o' ho ho' hne
  rcases (a.source g o).range_eq with hempty | ⟨t, r, hsrc, hr⟩
  · rw [hempty]
    exact ByteRange.empty_apart _
  · rcases (a.source g o').range_eq with hempty | ⟨t', r', hsrc', hr'⟩
    · rw [hempty]
      exact ByteRange.apart_empty _
    · rw [hr, hr']
      refine operands_apart h hop (.inr ho) (.inr ho') ?_ hsrc hsrc'
      rintro rfl
      obtain ⟨id, -, rfl, -⟩ := source_eq_placed hsrc
      exact hne id rfl id rfl rfl

theorem inputs_apart_outputs (hc : g.Checked) (h : a.Fits g tables)
    (hop : g.operators[k]? = some op) {r r' : ByteRange}
    (hr : r ∈ inputRanges [] (op.inputs.map fun o => (o, a.source g o)))
    (hr' : r' ∈ op.outputs.map fun o => (a.source g o).range) : r.Apart r' := by
  rcases mem_inputRanges hr with rfl | ⟨o, ho, t, hsrc, -⟩
  · exact ByteRange.empty_apart r'
  · rcases mem_outputClaims hr' with rfl | ⟨o', t', ho', hsrc'⟩
    · exact ByteRange.apart_empty r
    · refine operands_apart h hop (.inl ho) (.inr ho') ?_ hsrc hsrc'
      -- An operator does not read what it writes.
      rintro rfl
      obtain ⟨id, -, rfl, -⟩ := source_eq_placed hsrc
      exact (hc.write k op hop id (Operator.mem_outputIds.mpr ho')).2.2.2
        (Operator.mem_inputIds.mpr ho)

/-- Operands lie above the scratch blocks and below the persistent data. -/
theorem operand_apart (h : a.Fits g tables) (hop : g.operators[k]? = some op)
    (hg : a.grants[k]? = some grant) {o : Option Nat} (ho : o ∈ op.inputs ∨ o ∈ op.outputs)
    {t : Tensor} {r r' : ByteRange} (hsrc : a.source g o = .placed t r)
    (hr' : r' ∈ (a.pieces (a.rowOf k grant)).map Span.range ++ [(a.rowOf k grant).userRange]) :
    r.Apart r' := by
  obtain ⟨h₁, h₂, h₃, h₄, h₅, h₆⟩ := h.falling
  have hlies := (operand_range h hop ho hsrc).2.2.1
  rcases List.mem_append.mp hr' with hr' | hr'
  · obtain ⟨span, hspan, rfl⟩ := List.mem_map.mp hr'
    exact hlies.apart (ByteRange.lies_of_le (Nat.zero_le _)
      (h.scratch_range (mem_scratch_of_mem_pieces hspan)).2.1) h₆
  · obtain rfl := List.mem_singleton.mp hr'
    exact ((h.userRange hg).2.1.apart hlies h₃).symm

/-- While scratch rows can be numbered by 32-bit words, no two claims of an operator share a
byte. -/
theorem claims_apart (hc : g.Checked) (h : a.Fits g tables) (hop : g.operators[k]? = some op)
    (hg : a.grants[k]? = some grant) (hnumber : a.scratch.length ≤ 2 ^ 32) :
    (a.claims g op (a.rowOf k grant)).Pairwise ByteRange.Apart := by
  obtain ⟨h₁, h₂, h₃, h₄, h₅, h₆⟩ := h.falling
  rw [claims_eq h hg, List.pairwise_append, List.pairwise_append, List.pairwise_append]
  refine ⟨?inputs, ⟨outputs_apart hc h hop, ⟨?pieces, List.pairwise_singleton _ _, ?user⟩, ?output⟩,
    ?input⟩
  case inputs =>
    exact inputRanges_apart [] (inputs_once hc hop) fun o ho o' ho' hne t r t' r' hsrc hsrc' =>
      operands_apart h hop (.inl ho) (.inl ho') hne hsrc hsrc'
  case pieces =>
    rw [List.pairwise_map]
    exact (h.pieces_apart hg hnumber).2
  case user =>
    intro r hr r' hr'
    obtain ⟨span, hspan, rfl⟩ := List.mem_map.mp hr
    obtain rfl := List.mem_singleton.mp hr'
    have hpiece : span.range.Lies 0 a.stages.scratch := ByteRange.lies_of_le (Nat.zero_le _)
      (h.scratch_range (mem_scratch_of_mem_pieces hspan)).2.1
    exact ((h.userRange hg).2.1.apart hpiece (by omega)).symm
  case output =>
    intro r hr r' hr'
    rcases mem_outputClaims hr with rfl | ⟨o, t, ho, hsrc⟩
    · exact ByteRange.empty_apart r'
    · exact operand_apart h hop hg (.inr ho) hsrc hr'
  case input =>
    intro r hr r' hr'
    rcases List.mem_append.mp hr' with hr' | hr'
    · exact inputs_apart_outputs hc h hop hr hr'
    · rcases mem_inputRanges hr with rfl | ⟨o, ho, t, hsrc, -⟩
      · exact ByteRange.empty_apart r'
      · exact operand_apart h hop hg (.inl ho) hsrc hr'

/-! ## Binding -/

/-- Where no two claims share a byte, binding succeeds with the operands that the allotment says. -/
theorem bind_of_apart (hc : g.Checked) (h : a.Fits g tables) (hs : a.Settled tables m)
    (hsize : a.stages.start ≤ m.size) (hop : g.operators[k]? = some op)
    (hg : a.grants[k]? = some grant) (hin : op.inputs.length ≤ maxOperands)
    (hout : op.outputs.length ≤ maxOperands)
    (hapart : (a.claims g op (a.rowOf k grant)).Pairwise ByteRange.Apart) (context : Option Int) :
    m.bind g op tables (a.rowOf k grant) context =
      .ok (m.operands op (a.rowOf k grant) context (a.sources g op (a.rowOf k grant))) := by
  have hlen := length_claims_le h hg hin hout
  have hpieces : maxOperands + maxOperands + maxScratch + 1 ≤ Memory.maxPieces := by decide
  refine Memory.bind_eq_ok_iff.mpr ⟨_, sources_eq hc h hs hop hg, Nat.le_trans hlen hpieces,
    fun r hr => Nat.le_trans (claims_stop_le h hop hg hr) hsize, hapart, ?_, rfl⟩
  rw [sources, List.length_map, h.length_pieces hg]
  exact h.scratch_le hg

/-- While scratch rows can be numbered by 32-bit words, every operator is bound. -/
theorem bind_eq (hc : g.Checked) (h : a.Fits g tables) (hs : a.Settled tables m)
    (hsize : a.stages.start ≤ m.size) (hop : g.operators[k]? = some op)
    (hg : a.grants[k]? = some grant) (hin : op.inputs.length ≤ maxOperands)
    (hout : op.outputs.length ≤ maxOperands) (hnumber : a.scratch.length ≤ 2 ^ 32)
    (context : Option Int) :
    m.bind g op tables (a.rowOf k grant) context =
      .ok (m.operands op (a.rowOf k grant) context (a.sources g op (a.rowOf k grant))) :=
  bind_of_apart hc h hs hsize hop hg hin hout (claims_apart hc h hop hg hnumber) context

end Allotment

end TensorArena
