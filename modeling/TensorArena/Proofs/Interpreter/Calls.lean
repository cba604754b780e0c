import TensorArena.Interpreter.Invoke
import TensorArena.Proofs.Interpreter.Reach

/-!
# Calls on an interpreter

What the owner of an interpreter can bring about by a call: creating it touches no byte, allocating
it is a pass that leaves an allotment or fails, and as long as its allotment is settled every later
call writes only within reach. Such an interpreter is `Lodged`.
-/

namespace TensorArena

variable {σ π : Type}

/-- The tables that are known in a state. -/
def Lifecycle.tables? : Lifecycle → Option Tables
  | created => none
  | allocated tables => some tables
  | failed tables => tables

@[simp]
theorem Lifecycle.tables?_created : created.tables? = none :=
  rfl

@[simp]
theorem Lifecycle.tables?_allocated (tables : Tables) : (allocated tables).tables? = some tables :=
  rfl

@[simp]
theorem Lifecycle.tables?_failed (known : Option Tables) : (failed known).tables? = known :=
  rfl

namespace Site

variable {s s' s'' : Site σ π}

/-- A quiet step after a pass belongs to the pass. -/
theorem Since.quiet (h : s.Since s') (hq : s'.Quiet s'') : s.Since s'' :=
  h.trans (.of_eq h.sound (by rw [arena, hq.store_eq]) hq.granted_eq hq.hold_eq)

end Site

/-! ## Running all operators -/

namespace Allotment

variable {a : Allotment} {g : Graph} {tables : Tables} {k : Nat} {op : Operator}

/-- What binding needs besides settled tables: scratch rows numbered by 32-bit words, an arena that
has the bytes, and no operator with too many operands. -/
structure Bindable (a : Allotment) (g : Graph) (m : Memory) : Prop where
  number : a.scratch.length ≤ 2 ^ 32
  start_le : a.stages.start ≤ m.size
  inputs : ∀ op ∈ g.operators, op.inputs.length ≤ maxOperands
  outputs : ∀ op ∈ g.operators, op.outputs.length ≤ maxOperands

theorem Bindable.congr {m m' : Memory} (h : a.Bindable g m) (hsize : m'.size = m.size) :
    a.Bindable g m' :=
  { h with start_le := hsize ▸ h.start_le }

theorem bound_eq (hc : g.Checked) (h : a.Fits g tables) {s : Site σ π}
    (hs : a.Settled tables s.memory) (hb : a.Bindable g s.memory)
    (hop : g.operators[k]? = some op) {grant : Grant} (hg : a.grants[k]? = some grant)
    (context : Option Int) :
    s.bound g op tables k context =
      .ok (s.memory.operands op (a.rowOf k grant) context (a.sources g op (a.rowOf k grant))) := by
  have hmem := List.mem_of_getElem? hop
  rw [hs.bound_eq hg]
  exact bind_eq hc h hs hb.start_le hop hg (hb.inputs op hmem) (hb.outputs op hmem) hb.number context

/-- Running operators from the first one on writes within reach; if binding has what it needs, only a
kernel can make it fail. -/
theorem runAll_wrote (hc : g.Checked) (h : a.Fits g tables) {s : Site σ π}
    (hs : a.Settled tables s.memory) (profiler : Option (Profiler π)) (context : Option Int)
    (pairs : List (Operator × Kernel σ))
    (hpairs : ∀ (j : Nat) op k, pairs[j]? = some (op, k) → g.operators[j]? = some op) :
    (Pass.runAll g profiler context tables pairs 0).Runs s
      (fun _ s' => s.Wrote a.Reach s')
      (fun e s' => s.Wrote a.Reach s' ∧
        (a.Bindable g s.memory → ∃ index name cause, e = .kernel index name cause)) := by
  refine Pass.runAll_runs (fun _ s' => s.Wrote a.Reach s') (fun j op k s' hj hw => ?_) (.refl s)
  rw [Nat.zero_add]
  have hop : g.operators[j]? = some op := hpairs j op k hj
  have hsettled : a.Settled tables s'.memory := hs.wrote h rfl hw
  refine (Pass.runOperator_runs s' g profiler context tables j op k).mono ?_ ?_
  · rintro - s'' ⟨o, hbound, hran⟩
    exact hw.trans (wrote_of_ran hc h hsettled hop hbound hran)
  · rintro e s'' (⟨hbound, rfl⟩ | ⟨o, cause, hbound, rfl, hran⟩)
    · refine ⟨hw, fun hb => ?_⟩
      obtain ⟨grant, hg⟩ := h.exists_grant hop
      rw [bound_eq hc h hsettled (hb.congr hw.size_eq) hop hg] at hbound
      cases hbound
    · exact ⟨hw.trans (wrote_of_ran hc h hsettled hop hbound hran), fun _ => ⟨j, op.name, cause, rfl⟩⟩

end Allotment

namespace Interpreter

/-! ## Creating -/

/-- What holds of every interpreter that was created: a kernel for each operator, and room for the
operands of each. -/
structure Made (i : Interpreter σ π) : Prop where
  kernels_length : i.kernels.length = i.graph.operators.length
  inputs : ∀ op ∈ i.graph.operators, op.inputs.length ≤ maxOperands
  outputs : ∀ op ∈ i.graph.operators, op.outputs.length ≤ maxOperands

theorem factoryOf_ok {resolver : Resolver σ} {op : Operator} {factory : Factory σ}
    (h : factoryOf resolver op = .ok factory) :
    op.inputs.length ≤ maxOperands ∧ op.outputs.length ≤ maxOperands := by
  unfold factoryOf at h
  dsimp only at h
  split at h
  · cases h
  · omega

theorem resolve_ok {resolver : Resolver σ} {made kernels : List (Kernel σ)} {ops : List Operator}
    {outside outside' : σ} (h : resolve resolver made ops outside = (.ok kernels, outside')) :
    kernels.length = made.length + ops.length ∧
      ∀ op ∈ ops, op.inputs.length ≤ maxOperands ∧ op.outputs.length ≤ maxOperands := by
  induction ops generalizing made outside with
  | nil =>
    cases h
    exact ⟨rfl, nofun⟩
  | cons op rest ih =>
    unfold resolve at h
    split at h
    · cases h
    · rename_i factory hfactory
      obtain ⟨hlen, hrest⟩ := ih h
      refine ⟨?_, List.forall_mem_cons.mpr ⟨factoryOf_ok hfactory, hrest⟩⟩
      rw [hlen, List.length_append, List.length_singleton, List.length_cons]
      omega

theorem create_ok {g : CheckedGraph} {resolver : Resolver σ} {s s' : Site σ π}
    {i : Interpreter σ π} (h : create g resolver s = (.ok i, s')) :
    i.Made ∧ i.graph = g ∧ i.state = .created ∧ i.strategy = .firstFit := by
  unfold create at h
  split at h
  · cases h
  · rename_i kernels outside hresolve
    cases h
    obtain ⟨hlen, hlimits⟩ := resolve_ok hresolve
    rw [List.length_nil, Nat.zero_add] at hlen
    exact ⟨⟨hlen, fun op hop => (hlimits op hop).1, fun op hop => (hlimits op hop).2⟩, rfl, rfl, rfl⟩

/-! ## Lodged interpreters -/

/-- The interpreter knows its tables, and what it owns is where the allotment says. -/
structure Lodged (i : Interpreter σ π) (tables : Tables) (a : Allotment) (m : Memory) : Prop where
  tables_eq : i.state.tables? = some tables
  fits : a.Fits i.graph.toGraph tables
  settled : a.Settled tables m
  start_le : a.stages.start ≤ m.size

theorem Lodged.wrote {i i' : Interpreter σ π} {tables : Tables} {a : Allotment} {s s' : Site σ π}
    (h : i.Lodged tables a s.memory) (hw : s.Wrote a.Reach s') (hgraph : i'.graph = i.graph)
    (hstate : i'.state.tables? = some tables) : i'.Lodged tables a s'.memory where
  tables_eq := hstate
  fits := hgraph ▸ h.fits
  settled := h.settled.wrote h.fits rfl hw
  start_le := hw.size_eq ▸ h.start_le

/-- An interpreter stays lodged while no byte in its blocks of the tail changes. -/
theorem Lodged.agree {i : Interpreter σ π} {tables : Tables} {a : Allotment} {m m' : Memory}
    (h : i.Lodged tables a m) (hsize : m'.size = m.size)
    (hagree : ∀ r, ⟨.tail, r, arenaAlignment⟩ ∈ a.blocks → m.AgreeOn m' r) :
    i.Lodged tables a m' where
  tables_eq := h.tables_eq
  fits := h.fits
  settled := h.settled.congr (hagree _ h.fits.operators.mem) (hagree _ h.fits.tensors.mem)
    fun hne => hagree _ (h.fits.scratch.took hne).mem
  start_le := hsize ▸ h.start_le

/-! ## Allocating -/

/-- What a call to allocate an interpreter brings about. -/
inductive Allocating (i : Interpreter σ π) (s : Site σ π) :
    Except AllocationError Unit → Interpreter σ π → Site σ π → Prop
  /-- Nothing, for it is allocated or has failed, or the store is held. -/
  | stayed {answer : Except AllocationError Unit} :
      (answer = .ok () → i.state ≠ .created) → Allocating i s answer i s
  | done {tables : Tables} {a : Allotment} {s₁ s' : Site σ π} :
      i.state = .created → s.hold = .free →
        Pass.Committed i.graph.toGraph i.kernels i.strategy s s₁ tables a → s₁.Quiet s' →
        Allocating i s (.ok ()) { i with state := .allocated tables } s'
  | failed {e : AllocationError} {s' : Site σ π} :
      i.state = .created → s.Since s' → Allocating i s (.error e) { i with state := .failed none } s'

theorem allocating (i : Interpreter σ π) {s : Site σ π} (hs : s.Sound)
    (hkernels : i.kernels.length = i.graph.operators.length) (hstrategy : i.strategy.Sound) :
    Allocating i s (i.allocate s).1 (i.allocate s).2.1 (i.allocate s).2.2 := by
  unfold allocate
  split
  · rename_i tables hstate
    exact .stayed fun _ => by rw [hstate]; nofun
  · exact .stayed nofun
  · rename_i hstate
    split
    · exact .stayed nofun
    · rename_i hhold
      have hruns := Pass.commit_runs hs i.graph.toGraph i.kernels hkernels hstrategy
      split
      · rename_i tables s₁ hexec
        obtain ⟨a, hcommitted⟩ := hruns.of_ok hexec
        exact .done hstate (Decidable.not_not.mp hhold) hcommitted (.note ..)
      · rename_i e s₁ hexec
        exact .failed hstate ((hruns.of_error hexec).note ..)

/-- An interpreter is lodged as soon as it is allocated. -/
theorem lodged_of_committed {i : Interpreter σ π} {s s₁ s' : Site σ π} (hs : s.Sound)
    {tables : Tables} {a : Allotment}
    (h : Pass.Committed i.graph.toGraph i.kernels i.strategy s s₁ tables a) (hq : s₁.Quiet s') :
    Lodged { i with state := .allocated tables } tables a s'.memory := by
  refine ⟨rfl, h.fits, hq.memory_eq ▸ h.settled, ?_⟩
  rw [h.start_eq, hq.memory_eq, h.since.size_eq]
  exact hs.kept.tail_le

/-! ## Running -/

theorem runOnce_wrote {i : Interpreter σ π} {tables : Tables} {a : Allotment} {s : Site σ π}
    (h : i.Lodged tables a s.memory) :
    s.Wrote a.Reach (i.runOnce tables s).2.2 ∧
      ((i.runOnce tables s).2.1 = i ∨
        (i.runOnce tables s).2.1 = { i with state := .failed (some tables) }) ∧
      (a.Bindable i.graph.toGraph s.memory → ∀ e, (i.runOnce tables s).1 = .error e →
        e = .busy ∨ ∃ index name cause, e = .kernel index name cause) := by
  have hruns := Allotment.runAll_wrote i.graph.rules h.fits h.settled i.activeProfiler i.context
    (i.graph.operators.zip i.kernels) fun _ _ _ hj => (List.getElem?_zip_eq_some.mp hj).1
  unfold runOnce
  split
  · refine ⟨.refl s, .inl rfl, fun _ e he => .inl ?_⟩
    cases he
    rfl
  · split
    · rename_i index operator cause s' hexec
      obtain ⟨hw, -⟩ := hruns.of_error hexec
      refine ⟨hw.trans (.of_quiet (.note ..)), .inr rfl, fun _ e he => .inr ?_⟩
      cases he
      exact ⟨index, operator, cause, rfl⟩
    · rename_i outcome s' hkernel hexec
      cases outcome with
      | ok _ =>
        refine ⟨hruns.of_ok hexec, .inl rfl, fun _ e he => ?_⟩
        cases he
      | error e =>
        obtain ⟨hw, honly⟩ := hruns.of_error hexec
        refine ⟨hw, .inl rfl, fun hb e' he => .inr ?_⟩
        cases he
        exact honly hb

/-! ## Writing tensors -/

theorem locate_ok {i : Interpreter σ π} {s : Site σ π} {id : Nat} {write : Bool} {t : Tensor}
    {span : Span} (h : i.locate s id write = .ok (t, span)) :
    ∃ tables, i.tablesFor write = .ok tables ∧ i.graph.tensors[id]? = some t ∧
      s.store.memory.readRow Span.layout tables.tensors id = .ok span := by
  unfold locate at h
  obtain ⟨tables, htables, h⟩ := bind_ok h
  cases ht : i.graph.tensors[id]? with
  | none =>
    rw [ht] at h
    cases h
  | some t' =>
    rw [ht] at h
    dsimp only at h
    split at h
    · cases h
    · obtain ⟨span', hspan, h⟩ := bind_ok h
      cases h
      refine ⟨tables, htables, rfl, ?_⟩
      cases hread : s.store.memory.readRow Span.layout tables.tensors id with
      | ok span'' =>
        rw [hread] at hspan
        cases hspan
        rfl
      | error e =>
        rw [hread] at hspan
        cases hspan

/-- A tensor is found only while no writer holds the store. -/
theorem hold_of_locate {i : Interpreter σ π} {s : Site σ π} {id : Nat} {write : Bool}
    {found : Tensor × Span} (h : i.locate s id write = .ok found) : s.hold ≠ .exclusive := by
  intro hhold
  unfold locate at h
  obtain ⟨tables, -, h⟩ := bind_ok h
  split at h
  · cases h
  · rw [if_pos hhold] at h
    cases h

theorem tables_of_tablesFor {i : Interpreter σ π} {write : Bool} {tables : Tables}
    (h : i.tablesFor write = .ok tables) : i.state.tables? = some tables := by
  unfold tablesFor at h
  unfold Lifecycle.tables?
  split at h
  · rename_i tables' hstate
    cases h
    rw [hstate]
  · rename_i tables' hstate
    split at h
    · cases h
    · cases h
      rw [hstate]
  · cases h

theorem tables_of_writableTensor {i : Interpreter σ π} {s : Site σ π} {id : Nat} {handle : Handle}
    (h : i.writableTensor s id = .ok handle) : ∃ tables, i.state.tables? = some tables := by
  unfold Interpreter.writableTensor at h
  obtain ⟨_, hloc, -⟩ := bind_ok h
  obtain ⟨tables, htables, -⟩ := locate_ok hloc
  exact ⟨tables, tables_of_tablesFor htables⟩

/-- Of a lodged interpreter a tensor is found in its row of the table. -/
theorem Lodged.locate {i : Interpreter σ π} {tables : Tables} {a : Allotment} {s : Site σ π}
    (h : i.Lodged tables a s.memory) {id : Nat} {write : Bool} {t : Tensor} {span : Span}
    (hloc : i.locate s id write = .ok (t, span)) :
    i.graph.tensors[id]? = some t ∧ a.spans[id]? = some span := by
  obtain ⟨tables', htables, ht, hread⟩ := locate_ok hloc
  have heq := tables_of_tablesFor htables
  rw [h.tables_eq] at heq
  cases heq
  refine ⟨ht, ?_⟩
  obtain ⟨span', hspan⟩ := h.fits.exists_span ht
  have hrow : s.store.memory.readRow Span.layout tables.tensors id = .ok span' :=
    h.settled.tensors.readRow Span.layout_lawful hspan
  rw [hrow] at hread
  cases hread
  exact hspan

/-- A handle for writing holds the bytes of a tensor that is stored in the arena. -/
theorem Lodged.writableTensor {i : Interpreter σ π} {tables : Tables} {a : Allotment}
    {s : Site σ π} (h : i.Lodged tables a s.memory) {id : Nat} {handle : Handle}
    (hw : i.writableTensor s id = .ok handle) :
    ∃ t span, i.graph.toGraph.Stored id t ∧ a.spans[id]? = some span ∧
      handle = ⟨t, ⟨span.range.offset, s.memory.piece span.range⟩⟩ := by
  unfold Interpreter.writableTensor at hw
  obtain ⟨⟨t, span⟩, hloc, hw⟩ := bind_ok hw
  obtain ⟨ht, hspan⟩ := h.locate hloc
  dsimp only at hw
  split at hw
  · cases hw
  · rename_i hd
    split at hw
    · cases hw
    · rename_i hplaced
      split at hw
      · cases hw
      · obtain ⟨slice, hslice, hw⟩ := bind_ok hw
        cases hw
        have hnone : t.data = none := Option.not_isSome_iff_eq_none.mp hd
        refine ⟨t, span, h.fits.stored_of_isPlaced ht hnone hspan (Decidable.not_not.mp hplaced),
          hspan, ?_⟩
        unfold bytesOf Memory.read? at hslice
        split at hslice
        · rename_i hread
          split at hread
          · cases hread
            cases hslice
            rfl
          · cases hread
        · cases hslice

/-- Putting other bytes of the same number under a handle writes within reach. -/
theorem Lodged.put_wrote {i : Interpreter σ π} {tables : Tables} {a : Allotment} {s : Site σ π}
    (h : i.Lodged tables a s.memory) {id : Nat} {handle : Handle}
    (hw : i.writableTensor s id = .ok handle) {bytes : Bytes}
    (hlen : bytes.length = handle.slice.bytes.length) :
    s.Wrote a.Reach (s.put { handle with slice := ⟨handle.slice.address, bytes⟩ }) := by
  obtain ⟨t, span, hstored, hspan, rfl⟩ := h.writableTensor hw
  refine .of_store rfl rfl rfl (Memory.size_write ..) fun x hx => ?_
  refine Memory.get_write_of_not_covers _ fun hcovers => hx ?_
  refine h.fits.reach_stored hstored hspan ?_
  have hle : bytes.length ≤ span.range.length := by
    rw [hlen]
    simp only [Memory.piece, Memory.length_read]
    omega
  simp only [ByteRange.Covers, ByteRange.stop] at hcovers ⊢
  omega

/-! ## Handles can be had -/

theorem Lodged.tablesFor_eq {i : Interpreter σ π} {tables : Tables} {a : Allotment} {m : Memory}
    (h : i.Lodged tables a m) : i.tablesFor false = .ok tables := by
  have hknown := h.tables_eq
  unfold Lifecycle.tables? at hknown
  split at hknown
  · cases hknown
  · rename_i tables' hstate
    cases hknown
    rw [tablesFor, hstate]
  · rename_i known hstate
    cases hknown
    rw [tablesFor, hstate]
    rfl

theorem Lodged.locate_eq {i : Interpreter σ π} {tables : Tables} {a : Allotment} {s : Site σ π}
    (h : i.Lodged tables a s.memory) {write : Bool} (htables : i.tablesFor write = .ok tables)
    (hhold : s.hold ≠ .exclusive) {id : Nat} {t : Tensor} (ht : i.graph.tensors[id]? = some t)
    {span : Span} (hspan : a.spans[id]? = some span) : i.locate s id write = .ok (t, span) := by
  have hrow : s.store.memory.readRow Span.layout tables.tensors id = .ok span :=
    h.settled.tensors.readRow Span.layout_lawful hspan
  unfold Interpreter.locate
  rw [htables]
  simp only [ht, if_neg hhold]
  show (do
    let span ← (s.store.memory.readRow Span.layout tables.tensors id).mapError AccessError.memory
    pure (t, span)) = _
  rw [hrow]
  rfl

theorem Lodged.bytesOf_eq {i : Interpreter σ π} {tables : Tables} {a : Allotment} {s : Site σ π}
    (h : i.Lodged tables a s.memory) {span : Span} (hstop : span.range.stop ≤ a.stages.start) :
    bytesOf s span = .ok ⟨span.range.offset, s.memory.piece span.range⟩ := by
  have hread : s.store.memory.read? span.range.offset span.range.length =
      some (s.memory.piece span.range) :=
    if_pos (Nat.le_trans hstop h.start_le)
  unfold bytesOf
  rw [hread]

/-- An allocated interpreter hands out every tensor that is stored in the arena, for writing too. -/
theorem Lodged.writableTensor_eq {i : Interpreter σ π} {tables : Tables} {a : Allotment}
    {s : Site σ π} (h : i.Lodged tables a s.memory) (hstate : i.state = .allocated tables)
    (hhold : s.hold = .free) {id : Nat} {t : Tensor} (hs : i.graph.toGraph.Stored id t)
    {span : Span} (hspan : a.spans[id]? = some span) :
    i.writableTensor s id = .ok ⟨t, ⟨span.range.offset, s.memory.piece span.range⟩⟩ := by
  obtain ⟨_, heq, hplaced, -, -, -, hstop⟩ := h.fits.stored hs
  cases hspan.symm.trans heq
  have htables : i.tablesFor true = .ok tables := by
    rw [tablesFor, hstate]
  have hshared : s.hold ≠ .exclusive := by
    rw [hhold]
    nofun
  unfold Interpreter.writableTensor
  rw [h.locate_eq htables hshared hs.1 hspan]
  have hdata : ¬ t.data.isSome = true := by
    rw [hs.data_eq_none]
    nofun
  have hbytes := h.bytesOf_eq hstop
  show (if t.data.isSome = true then _ else _) = _
  rw [if_neg hdata]
  show (if ¬ span.IsPlaced then _ else _) = _
  rw [if_neg (not_not_intro hplaced)]
  show (if s.hold ≠ .free then _ else _) = _
  rw [if_neg (not_not_intro hhold)]
  show (do let slice ← bytesOf s span; _) = _
  rw [hbytes]
  rfl

/-- An interpreter that knows its tables hands out every tensor for reading, stored or constant. -/
theorem Lodged.tensor_eq {i : Interpreter σ π} {tables : Tables} {a : Allotment}
    {s : Site σ π} (h : i.Lodged tables a s.memory) (hhold : s.hold ≠ .exclusive) {id : Nat}
    {t : Tensor} (hs : i.graph.toGraph.Stored id t) {span : Span}
    (hspan : a.spans[id]? = some span) :
    i.tensor s id = .ok ⟨t, ⟨span.range.offset, s.memory.piece span.range⟩⟩ := by
  obtain ⟨_, heq, hplaced, -, -, -, hstop⟩ := h.fits.stored hs
  cases hspan.symm.trans heq
  unfold Interpreter.tensor
  rw [h.locate_eq h.tablesFor_eq hhold hs.1 hspan]
  have hbytes := h.bytesOf_eq hstop
  dsimp only [bind, Except.bind]
  rw [hs.data_eq_none]
  dsimp only
  rw [if_neg (not_not_intro hplaced)]
  show (do let slice ← bytesOf s span; _) = _
  rw [hbytes]
  rfl

theorem Lodged.tensor_constant {i : Interpreter σ π} {tables : Tables} {a : Allotment}
    {s : Site σ π} (h : i.Lodged tables a s.memory) (hhold : s.hold ≠ .exclusive) {id : Nat}
    {t : Tensor} (ht : i.graph.tensors[id]? = some t) {data : Packed} (hd : t.data = some data) :
    i.tensor s id = .ok ⟨t, ⟨0, data.toBytes⟩⟩ := by
  obtain ⟨span, hspan⟩ := h.fits.exists_span ht
  unfold Interpreter.tensor
  rw [h.locate_eq h.tablesFor_eq hhold ht hspan]
  dsimp only [bind, Except.bind]
  rw [hd]
  rfl

end Interpreter

end TensorArena
