import TensorArena.Proofs.Reference.Operands

/-!
# Shared memory tracks the reference

`Tracks` relates an arena to the stores of the reference: variables, persistent data and certain
activations hold the same bytes. Which activations these may be, operator by operator, is what `Knows`
says: all that an operator reads, and of what it does not write only what lies apart from its targets.
The live activations are such a choice: they have a value, and some operator from `k` on or the owner
of the graph still needs it. A live tensor that an operator does not write is alive while it runs, so
the planner kept the two apart.
-/

namespace TensorArena

variable {σ π : Type}

namespace Graph

variable {g : Graph} {id k : Nat}

/-- The tensor has a value when operator `k` starts. -/
def HasValue (g : Graph) (k id : Nat) : Prop :=
  id ∈ g.inputs ∨ id ∈ g.writtenBefore k

/-- The tensor has a value when operator `k` starts, and its bytes are not given up before. -/
structure Live (g : Graph) (k id : Nat) : Prop where
  hasValue : g.HasValue k id
  needed : ∀ l, g.Planned id l → k ≤ l.last + 1

theorem writtenBefore_succ {op : Operator} (hop : g.operators[k]? = some op) :
    g.writtenBefore (k + 1) = g.writtenBefore k ++ op.outputIds := by
  rw [writtenBefore, writtenBefore, List.take_add_one, hop, List.flatMap_append]
  simp

/-- A tensor with a value was needed before. -/
theorem HasValue.touched (h : g.HasValue k id) : ∃ j ≤ k, j ∈ g.touches id := by
  rcases h with hin | hw
  · exact ⟨0, Nat.zero_le _, mem_touches.mpr (.inl ⟨hin, rfl⟩)⟩
  · obtain ⟨op, hop, hid⟩ := List.mem_flatMap.mp hw
    obtain ⟨j, hj⟩ := List.mem_iff_getElem?.mp hop
    rw [List.getElem?_take] at hj
    split at hj
    · rename_i hlt
      exact ⟨j, Nat.le_of_lt hlt,
        mem_touches.mpr (.inr (.inl ⟨op, hj, List.mem_append_right _ hid⟩))⟩
    · cases hj

/-- What an operator reads is live when it starts. -/
theorem live_of_read (hc : g.Checked) {op : Operator} (hop : g.operators[k]? = some op)
    (hid : id ∈ op.inputIds) {t : Tensor} (ht : g.tensors[id]? = some t)
    (hkind : t.kind = .activation) : g.Live k id where
  hasValue := hc.read k op hop id hid t ht hkind
  needed l hl := by
    have halive := hl.aliveAt
      (mem_touches.mpr (.inr (.inl ⟨op, hop, List.mem_append_left _ hid⟩)))
    exact Nat.le_succ_of_le halive.2

/-- A tensor that is live after an operator that does not write it is alive while the operator runs,
and live before. -/
theorem Live.before {op : Operator} (hop : g.operators[k]? = some op) (h : g.Live (k + 1) id)
    (hnot : id ∉ op.outputIds) :
    g.Live k id ∧ ∀ l, g.Planned id l → l.AliveAt k := by
  have hvalue : g.HasValue k id := by
    rcases h.hasValue with hin | hw
    · exact .inl hin
    · rw [writtenBefore_succ hop] at hw
      exact .inr ((List.mem_append.mp hw).resolve_right hnot)
  refine ⟨⟨hvalue, fun l hl => ?_⟩, fun l hl => ?_⟩
  · have := h.needed l hl
    omega
  · obtain ⟨j, hle, hj⟩ := hvalue.touched
    have hneeded := h.needed l hl
    exact ⟨Nat.le_trans (hl.aliveAt hj).1 hle, by omega⟩

end Graph

namespace Allotment

variable {a : Allotment} {g : Graph} {tables : Tables} {m : Memory} {k : Nat} {op : Operator}
  {grant : Grant}

/-- The memory holds what the stores hold: variables, the activations that are known, and persistent
data. -/
structure Tracks (a : Allotment) (g : Graph) (known : Nat → Prop) (v : Stores) (m : Memory) :
    Prop where
  tensors : ∀ id t, g.Stored id t → (t.kind = .activation → known id) →
    m.piece (a.rangeOf id) = v.tensors id
  persistent : ∀ k grant, a.grants[k]? = some grant →
    m.piece (a.rowOf k grant).userRange = v.persistent k

theorem Tracks.mono {known known' : Nat → Prop} {v : Stores} (h : a.Tracks g known v m)
    (hk : ∀ id, known' id → known id) : a.Tracks g known' v m :=
  { h with tensors := fun id t hs hknown => h.tensors id t hs fun hkind => hk id (hknown hkind) }

/-- A choice of the activations that are known when each operator starts. -/
structure Knows (a : Allotment) (g : Graph) (known : Nat → Nat → Prop) : Prop where
  reads : ∀ k op id t, g.operators[k]? = some op → id ∈ op.inputIds → g.tensors[id]? = some t →
    t.kind = .activation → known k id
  keeps : ∀ k op id l, g.operators[k]? = some op → g.Planned id l → id ∉ op.targets g →
    known (k + 1) id → known k id ∧ ∀ x ∈ op.targets g, (a.rangeOf x).Apart (a.rangeOf id)

variable {known : Nat → Nat → Prop}

/-- The inputs of an operator have the bytes that the reference gives them. -/
theorem Tracks.input_bytes (hc : g.Checked) (h : a.Fits g tables) (hknows : a.Knows g known)
    {v : Stores} (htracks : a.Tracks g (known k) v m) (hop : g.operators[k]? = some op)
    (context : Option Int) (row : OpRow) :
    (m.operands op row context (a.sources g op row)).inputs.map Input.bytes =
      op.inputs.map (v.value g) := by
  show ((op.inputs.map (a.source g)).map m.input).map Input.bytes = _
  rw [List.map_map, List.map_map]
  refine List.map_congr_left fun o ho => ?_
  cases o with
  | none => rfl
  | some id =>
    have hin := Operator.mem_inputIds.mpr ho
    have hid : id ∈ op.operandIds := List.mem_append_left _ hin
    obtain ⟨t, ht⟩ := hc.exists_operand (List.mem_of_getElem? hop) hid
    cases hd : t.data with
    | some data =>
      rw [Function.comp, Function.comp, source_eq_of_constant h ht hd, v.value_of_constant ht hd]
      rfl
    | none =>
      have hpiece := htracks.tensors id t (Graph.stored_of_operand hop hid ht hd)
        fun hkind => hknows.reads k op id t hop hin ht hkind
      rw [Function.comp, Function.comp, source_eq_of_data h ht hd, v.value_of_data ht hd, ← hpiece]
      rw [Memory.input_placed]
      split
      · rfl
      · rfl

/-! ## What stays -/

/-- What an operator writes is a variable or an activation. -/
theorem stored_of_target (hc : g.Checked) (hop : g.operators[k]? = some op) {x : Nat}
    (hx : x ∈ op.targets g) : ∃ t, g.Stored x t := by
  have hoperand := Operator.mem_operandIds_of_mem_targets hx
  rcases List.mem_append.mp hx with hv | hout
  · obtain ⟨t, ht, hkind⟩ := of_decide_eq_true (List.mem_filter.mp hv).2
    exact ⟨t, Graph.stored_of_operand hop hoperand ht (Tensor.data_of_kind_var hkind).1⟩
  · obtain ⟨⟨t, ht, hkind⟩, -⟩ := hc.write k op hop x hout
    exact ⟨t, Graph.stored_of_operand hop hoperand ht (Tensor.data_of_kind_activation hkind).1⟩

/-- A tensor that an operator does not write is apart from its targets, if it is alive while the
operator runs. -/
theorem target_apart_tensor (hc : g.Checked) (h : a.Fits g tables)
    (hop : g.operators[k]? = some op) {id : Nat} {t : Tensor} (hs : g.Stored id t)
    (halive : ∀ l, g.Planned id l → l.AliveAt k) (hnot : id ∉ op.targets g) {x : Nat}
    (hx : x ∈ op.targets g) : (a.rangeOf x).Apart (a.rangeOf id) := by
  obtain ⟨t', hs'⟩ := stored_of_target hc hop hx
  obtain ⟨span, hspan, -⟩ := h.stored hs
  obtain ⟨span', hspan', -⟩ := h.stored hs'
  have hoperand := Operator.mem_operandIds_of_mem_targets hx
  rw [rangeOf_eq hspan, rangeOf_eq hspan']
  refine h.stored_apart hs' hs (fun heq => hnot (heq ▸ hx)) (fun l l' hl hl' => ?_) hspan' hspan
  exact Lifetime.overlaps_of_aliveAt
    (hl.aliveAt (Graph.mem_touches.mpr (.inr (.inl ⟨op, hop, hoperand⟩)))) (halive l' hl')

/-- The live activations are a choice of what is known. -/
theorem knows_live (hc : g.Checked) (h : a.Fits g tables) : a.Knows g g.Live where
  reads k op id t hop hin ht hkind := Graph.live_of_read hc hop hin ht hkind
  keeps k op id l hop hl hnot hlive := by
    obtain ⟨t, ht, hkind, hlife⟩ := hl
    have hout : id ∉ op.outputIds := fun hout => hnot (List.mem_append_right _ hout)
    obtain ⟨hbefore, halive⟩ := hlive.before hop hout
    exact ⟨hbefore, fun x hx => target_apart_tensor hc h hop ⟨ht, .inr ⟨l, t, ht, hkind, hlife⟩⟩
      halive hnot hx⟩

/-- The scratch blocks and the persistent data of an operator are apart from every tensor. -/
theorem workspace_apart_tensor (h : a.Fits g tables) (hg : a.grants[k]? = some grant) {id : Nat}
    {t : Tensor} (hs : g.Stored id t) {r : ByteRange}
    (hr : r ∈ (a.pieces (a.rowOf k grant)).map Span.range ++ [(a.rowOf k grant).userRange]) :
    r.Apart (a.rangeOf id) := by
  obtain ⟨h₁, h₂, h₃, h₄, h₅, h₆⟩ := h.falling
  obtain ⟨span, hspan, -, -, -, hlies, -⟩ := h.stored hs
  rw [rangeOf_eq hspan]
  rcases List.mem_append.mp hr with hr | hr
  · obtain ⟨piece, hpiece, rfl⟩ := List.mem_map.mp hr
    have hstop := (h.scratch_range (mem_scratch_of_mem_pieces hpiece)).2.1
    exact (hlies.apart (ByteRange.lies_of_le (Nat.zero_le _) hstop) h₆).symm
  · rw [List.mem_singleton.mp hr]
    exact (h.userRange hg).2.1.apart hlies h₃

/-- A tensor that is apart from the targets of an operator is apart from all that it may write. -/
theorem writable_apart_tensor (hc : g.Checked) (h : a.Fits g tables)
    (hop : g.operators[k]? = some op) (hg : a.grants[k]? = some grant) {id : Nat} {t : Tensor}
    (hs : g.Stored id t) (hapart : ∀ x ∈ op.targets g, (a.rangeOf x).Apart (a.rangeOf id))
    {r : ByteRange} (hr : r ∈ (a.sources g op (a.rowOf k grant)).writable (a.rowOf k grant)) :
    r.Apart (a.rangeOf id) := by
  rw [writable_eq hc h hop, List.append_assoc] at hr
  rcases List.mem_append.mp hr with hr | hr
  · obtain ⟨x, hx, rfl⟩ := List.mem_map.mp hr
    exact hapart x hx
  · exact workspace_apart_tensor h hg hs hr

/-- The persistent data of other operators are apart from all that an operator may write. -/
theorem writable_apart_userRange (h : a.Fits g tables)
    (hop : g.operators[k]? = some op) (hg : a.grants[k]? = some grant) {k' : Nat} {grant' : Grant}
    (hg' : a.grants[k']? = some grant') (hne : k ≠ k') {r : ByteRange}
    (hr : r ∈ (a.sources g op (a.rowOf k grant)).writable (a.rowOf k grant)) :
    r.Apart (a.rowOf k' grant').userRange := by
  obtain ⟨h₁, h₂, h₃, h₄, h₅, h₆⟩ := h.falling
  have huser := (h.userRange hg').2.1
  rcases mem_claims h hg ((writable_sublist h hg).subset hr) with
    rfl | ⟨o, t, ho, hsrc⟩ | ⟨piece, hpiece, rfl⟩ | rfl
  · exact ByteRange.empty_apart _
  · exact (huser.apart (operand_range h hop ho hsrc).2.2.1 h₃).symm
  · have hstop := (h.scratch_range (mem_scratch_of_mem_pieces hpiece)).2.1
    exact (huser.apart (ByteRange.lies_of_le (Nat.zero_le _) hstop) (by omega)).symm
  · exact h.userRange_apart hg hg' hne

/-! ## One operator -/

theorem length_of_mem_zip {ids : List Nat} {written : List Bytes} {size : Nat → Nat}
    (h : written.map List.length = ids.map size) {id : Nat} {bytes : Bytes}
    (hmem : (id, bytes) ∈ ids.zip written) : bytes.length = size id := by
  induction ids generalizing written with
  | nil => cases hmem
  | cons first ids ih =>
    cases written with
    | nil => cases hmem
    | cons head rest =>
      obtain ⟨hhead, hrest⟩ := List.cons.inj h
      rcases List.mem_cons.mp hmem with heq | hmem
      · cases heq
        exact hhead
      · exact ih hrest hmem

theorem exists_mem_zip {ids : List Nat} {written : List Bytes}
    (h : written.length = ids.length) {id : Nat} (hid : id ∈ ids) :
    ∃ bytes, (id, bytes) ∈ ids.zip written := by
  rw [← List.map_fst_zip (Nat.le_of_eq h.symm)] at hid
  obtain ⟨⟨_, bytes⟩, hmem, rfl⟩ := List.mem_map.mp hid
  exact ⟨bytes, hmem⟩

/-- The pieces that a kernel leaves: the targets of its operator, its scratch blocks and its
persistent data. -/
def left (a : Allotment) (g : Graph) (op : Operator) (row : OpRow) (r : Results)
    (scratch : List Bytes) : List (ByteRange × Bytes) :=
  ((op.targets g).zip r.written).map (Prod.map a.rangeOf id) ++
    ((a.pieces row).map Span.range).zip scratch ++ [(row.userRange, r.persistent)]

/-- What a kernel that is described by a function leaves in the memory. -/
theorem writeBack_eq (hc : g.Checked) (h : a.Fits g tables) (hb : a.Bindable g m)
    (hop : g.operators[k]? = some op) (hg : a.grants[k]? = some grant) (context : Option Int)
    {after : Operands} {r : Results} {scratch : List Bytes}
    (hwritten : r.written.length = (op.targets g).length)
    (hscratch : scratch.map List.length = grant.scratch)
    (hafter : after.writable.map (fun slice => slice.bytes) =
      r.written ++ scratch ++ [r.persistent]) :
    m.writeBack (m.operands op (a.rowOf k grant) context (a.sources g op (a.rowOf k grant))) after =
        m.join (a.left g op (a.rowOf k grant) r scratch) ∧
      (a.left g op (a.rowOf k grant) r scratch).map Prod.fst =
        (a.sources g op (a.rowOf k grant)).writable (a.rowOf k grant) := by
  have hlength : scratch.length = (a.pieces (a.rowOf k grant)).length := by
    rw [h.length_pieces hg, ← hscratch, List.length_map]
  have hzip : ((a.sources g op (a.rowOf k grant)).writable (a.rowOf k grant)).zip
      (r.written ++ scratch ++ [r.persistent]) = a.left g op (a.rowOf k grant) r scratch := by
    rw [writable_eq hc h hop, List.zip_append, List.zip_append, List.zip_map_left]
    · rfl
    · rw [List.length_map, hwritten]
    · rw [List.length_append, List.length_append, List.length_map, List.length_map, hwritten,
        hlength]
  refine ⟨?_, ?_⟩
  · rw [Memory.writeBack, Memory.putBack, map_range_writable h hb.start_le hop hg, hafter, hzip]
  · rw [← hzip, List.map_fst_zip]
    rw [writable_eq hc h hop]
    simp only [List.length_append, List.length_map, hwritten, hlength, List.length_singleton,
      Nat.le_refl]

/-! ### The memory after the kernel -/

section Left

variable {r : Results} {scratch : List Bytes}
  (hfst : (a.left g op (a.rowOf k grant) r scratch).map Prod.fst =
    (a.sources g op (a.rowOf k grant)).writable (a.rowOf k grant))
include hfst

theorem mem_writable_of_mem_left {p : ByteRange × Bytes}
    (hp : p ∈ a.left g op (a.rowOf k grant) r scratch) :
    p.1 ∈ (a.sources g op (a.rowOf k grant)).writable (a.rowOf k grant) := by
  rw [← hfst]
  exact List.mem_map_of_mem hp

theorem left_apart (hc : g.Checked) (h : a.Fits g tables) (hb : a.Bindable g m)
    (hop : g.operators[k]? = some op) (hg : a.grants[k]? = some grant) :
    (a.left g op (a.rowOf k grant) r scratch).Pairwise fun p q => p.1.Apart q.1 := by
  rw [← List.pairwise_map (f := Prod.fst), hfst]
  exact (claims_apart hc h hop hg hb.number).sublist (writable_sublist h hg)

/-- A target holds what the kernel left for it. -/
theorem piece_of_target (hc : g.Checked) (h : a.Fits g tables) (hb : a.Bindable g m)
    (hop : g.operators[k]? = some op) (hg : a.grants[k]? = some grant) {id : Nat} {t : Tensor}
    (hs : g.Stored id t) {bytes : Bytes} (hmem : (id, bytes) ∈ (op.targets g).zip r.written)
    (hlen : bytes.length = t.size) :
    (m.join (a.left g op (a.rowOf k grant) r scratch)).piece (a.rangeOf id) = bytes := by
  obtain ⟨span, hspan, -, hspanlen, -, -, hstop⟩ := h.stored hs
  refine m.piece_join (left_apart hfst hc h hb hop hg) ?_ ?_ ?_
  · exact List.mem_append_left _ (List.mem_append_left _ (List.mem_map_of_mem hmem))
  · rw [rangeOf_eq hspan, hspanlen, hlen]
  · rw [rangeOf_eq hspan]
    exact Nat.le_trans hstop hb.start_le

/-- Any tensor that is apart from the targets holds what it held. -/
theorem piece_of_notTarget (hc : g.Checked) (h : a.Fits g tables)
    (hop : g.operators[k]? = some op) (hg : a.grants[k]? = some grant) {id : Nat} {t : Tensor}
    (hs : g.Stored id t) (hapart : ∀ x ∈ op.targets g, (a.rangeOf x).Apart (a.rangeOf id)) :
    (m.join (a.left g op (a.rowOf k grant) r scratch)).piece (a.rangeOf id) =
      m.piece (a.rangeOf id) := by
  refine (m.join_agreeOn fun p hp => ?_).piece_eq
  exact writable_apart_tensor hc h hop hg hs hapart (mem_writable_of_mem_left hfst hp)

/-- Its own persistent data are as the kernel left them. -/
theorem piece_of_userRange (hc : g.Checked) (h : a.Fits g tables) (hb : a.Bindable g m)
    (hop : g.operators[k]? = some op) (hg : a.grants[k]? = some grant)
    (hlen : r.persistent.length = (a.rowOf k grant).userRange.length) :
    (m.join (a.left g op (a.rowOf k grant) r scratch)).piece (a.rowOf k grant).userRange =
      r.persistent := by
  refine m.piece_join (left_apart hfst hc h hb hop hg) ?_ hlen ?_
  · exact List.mem_append_right _ (List.mem_singleton_self _)
  · exact Nat.le_trans (h.userRange hg).2.2 hb.start_le

/-- The persistent data of other operators are as they were. -/
theorem piece_of_otherRange (h : a.Fits g tables) (hop : g.operators[k]? = some op)
    (hg : a.grants[k]? = some grant) {k' : Nat} {grant' : Grant} (hg' : a.grants[k']? = some grant')
    (hne : k ≠ k') :
    (m.join (a.left g op (a.rowOf k grant) r scratch)).piece (a.rowOf k' grant').userRange =
      m.piece (a.rowOf k' grant').userRange := by
  refine (m.join_agreeOn fun p hp => ?_).piece_eq
  exact writable_apart_userRange h hop hg hg' hne (mem_writable_of_mem_left hfst hp)

end Left

/-! ### The relation after the kernel -/

/-- What was tracked before the operator and the bytes that its kernel left are tracked after it. -/
theorem Tracks.join (hc : g.Checked) (h : a.Fits g tables) (hb : a.Bindable g m)
    (hknows : a.Knows g known) {v : Stores} (htracks : a.Tracks g (known k) v m) (hop : g.operators[k]? = some op)
    (hg : a.grants[k]? = some grant) {r : Results} {scratch : List Bytes}
    (hsizes : r.written.map List.length = (op.targets g).map g.sizeOf)
    (hpersistent : r.persistent.length = (v.persistent k).length)
    (hfst : (a.left g op (a.rowOf k grant) r scratch).map Prod.fst =
      (a.sources g op (a.rowOf k grant)).writable (a.rowOf k grant)) :
    a.Tracks g (known (k + 1)) ((v.putAll ((op.targets g).zip r.written)).keep k r.persistent)
      (m.join (a.left g op (a.rowOf k grant) r scratch)) := by
  have hwritten := Operator.length_written hsizes
  have hkeys := Operator.map_fst_zip_written hsizes
  refine ⟨fun id t hs hknown => ?_, fun k' grant' hg' => ?_⟩
  · rw [Stores.tensors_keep]
    by_cases hid : id ∈ op.targets g
    · obtain ⟨bytes, hmem⟩ := exists_mem_zip hwritten hid
      have hbytes : bytes.length = t.size := by
        rw [length_of_mem_zip hsizes hmem, Graph.sizeOf_eq hs.1]
      rw [piece_of_target hfst hc h hb hop hg hs hmem hbytes, Stores.tensors_putAll_of_mem v ?_ hmem]
      rw [hkeys]
      exact Operator.targets_nodup hc hop
    · -- Not written, so the operator could not reach it: a variable lies apart from all others.
      have hkept : (t.kind = .activation → known k id) ∧
          ∀ x ∈ op.targets g, (a.rangeOf x).Apart (a.rangeOf id) := by
        obtain ⟨ht, hkind | ⟨l, hl⟩⟩ := hs
        · refine ⟨fun hactivation => ?_, fun x hx => ?_⟩
          · rw [hkind] at hactivation
            cases hactivation
          · refine target_apart_tensor hc h hop ⟨ht, .inl hkind⟩ (fun l hl => ?_) hid hx
            have hactivation := hl.kind_eq ht
            rw [hkind] at hactivation
            cases hactivation
        · obtain ⟨hbefore, hapart⟩ := hknows.keeps k op id l hop hl hid (hknown (hl.kind_eq ht))
          exact ⟨fun _ => hbefore, hapart⟩
      rw [piece_of_notTarget hfst hc h hop hg hs hkept.2, Stores.tensors_putAll_of_notMem v ?_]
      · exact htracks.tensors id t hs hkept.1
      · rw [hkeys]
        exact hid
  · by_cases heq : k' = k
    · subst heq
      cases hg.symm.trans hg'
      refine (piece_of_userRange hfst hc h hb hop hg ?_).trans (if_pos rfl).symm
      rw [hpersistent, ← htracks.persistent k' grant hg]
      exact m.length_read_of_le (Nat.le_trans (h.userRange hg).2.2 hb.start_le)
    · rw [piece_of_otherRange hfst h hop hg hg' (Ne.symm heq), Stores.persistent_keep_of_ne _ heq,
        Stores.persistent_putAll]
      exact htracks.persistent k' grant' hg'

/-- The run of one operator keeps the relation. -/
theorem Tracks.step (hc : g.Checked) (h : a.Fits g tables) (hb : a.Bindable g m)
    (hknows : a.Knows g known) {v : Stores} (htracks : a.Tracks g (known k) v m)
    (hop : g.operators[k]? = some op) (hg : a.grants[k]? = some grant) {kernel : Kernel σ} {f : Meaning}
    (hcomputes : kernel.Computes g op f) {data : Bytes}
    (hprepares : kernel.Prepares (.of g op) grant data) {context : Option Int}
    {outside outside' : σ} {after : Operands}
    (hrun : kernel.invoke.run (m.operands op (a.rowOf k grant) context
      (a.sources g op (a.rowOf k grant)), outside) = (.ok (), after, outside')) :
    a.Tracks g (known (k + 1)) (v.step g op k f) (m.writeBack (m.operands op (a.rowOf k grant)
      context (a.sources g op (a.rowOf k grant))) after) := by
  obtain ⟨scratch, hscratch, hafter⟩ := hcomputes.results grant data hprepares _ _ _ _
    (operands_fit hc h hb hop hg context) hrun
  -- The kernel was handed the values that the reference has.
  have huser : (m.operands op (a.rowOf k grant) context
      (a.sources g op (a.rowOf k grant))).userData.bytes = v.persistent k :=
    htracks.persistent k grant hg
  rw [htracks.input_bytes hc h hknows hop, huser] at hafter
  obtain ⟨hsizes, hpersistent⟩ := hcomputes.sizes (op.inputs.map (v.value g)) (v.persistent k)
  obtain ⟨hjoin, hfst⟩ := writeBack_eq hc h hb hop hg context (Operator.length_written hsizes)
    hscratch hafter
  rw [hjoin]
  exact htracks.join hc h hb hknows hop hg hsizes hpersistent hfst

end Allotment

end TensorArena
