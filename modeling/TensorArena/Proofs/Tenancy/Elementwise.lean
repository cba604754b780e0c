import TensorArena.Kernel.Registry
import TensorArena.Proofs.Interpreter.Typed
import TensorArena.Proofs.Interpreter.Written
import TensorArena.Proofs.Kernel.Elementwise
import TensorArena.Proofs.Reference.Counted
import TensorArena.Proofs.Tenancy.Following
import TensorArena.Proofs.Tenancy.Ready

/-!
# Elementwise operators of tenants

An elementwise kernel trusts the counts that were compared when it was prepared: it reads its slices at
places that follow from them, without looking at how long the slices are. Binding hands out slices that
are as long as the declarations say, so the trust is justified, whatever ran before in the store and
whatever bytes the operands hold. Inputs may be constants, variables or activations, the same tensor
twice, and a single element on either side.
-/

namespace TensorArena

variable {σ π : Type}

namespace Signature

variable {g : Graph} {op : Operator} {j : Nat} {t : Tensor}

/-- A declaration is that of the operand in its place. -/
theorem exists_operand {operands : List (Option Nat)}
    (h : ((operands.map fun operand => operand.bind fun id => g.tensors[id]?)[j]?).join = some t) :
    ∃ id, operands[j]? = some (some id) ∧ g.tensors[id]? = some t := by
  rw [List.getElem?_map, Option.join_eq_some_iff] at h
  obtain ⟨operand, hoperand, heq⟩ := Option.map_eq_some_iff.mp h
  obtain ⟨id, rfl, ht⟩ := Option.bind_eq_some_iff.mp heq
  exact ⟨id, hoperand, ht⟩

theorem input?_of (h : (of g op).input? j = some t) :
    ∃ id, op.inputs[j]? = some (some id) ∧ g.tensors[id]? = some t :=
  exists_operand h

theorem output?_of (h : (of g op).output? j = some t) :
    ∃ id, op.outputs[j]? = some (some id) ∧ g.tensors[id]? = some t :=
  exists_operand h

end Signature

namespace Operands

variable {o : Operands} {j : Nat} {t : Tensor} {slice : Slice} {v : View}

theorem input_eq (h : o.inputs[j]? = some (.shared t slice) ∨ o.inputs[j]? = some (.var t slice))
    (hview : t.viewOf slice = .ok v) : o.input j = .ok v := by
  rcases h with h | h
  · rw [input, input?, h]
    dsimp only
    rw [hview]
    rfl
  · rw [input, input?, h]
    dsimp only
    rw [hview]
    rfl

theorem output_eq (h : o.outputs[j]? = some (some (t, slice))) (hview : t.viewOf slice = .ok v) :
    o.output j = .ok v := by
  rw [output, output?, h]
  dsimp only
  rw [hview]
  rfl

end Operands

/-- Elements that fill a slice are read back from it. -/
theorem Slice.elements_store {t : Tensor} {slice : Slice} {base : Nat} {ws : List Nat}
    (hlen : ws.length * t.dtype.size = slice.bytes.length) (hfit : ∀ w ∈ ws, w < 256 ^ t.dtype.size)
    (h : t.Readable base (slice.store t.dtype.size ws)) :
    (slice.store t.dtype.size ws).elements t.dtype t.dtype = .ok ws := by
  obtain ⟨ws', -, helements, -⟩ := h.elements
  obtain ⟨-, -, rfl⟩ := Slice.elements_ok helements
  rw [helements, Slice.store, Bytes.overlay_eq (by rw [Bytes.length_ofWords, hlen]),
    Bytes.words_ofWords t.dtype.size_pos hfit]

/-- An input that suits the output has as many elements or one. -/
theorem Elementwise.Suits.count_eq {t out : Tensor} (h : Elementwise.Suits t out) (ht : t.Valid)
    (hout : out.Valid) : t.shape.dims.prod = out.shape.dims.prod ∨ t.shape.dims.prod = 1 := by
  rw [← ht.elements_eq, ← hout.elements_eq]
  exact h.elements_eq

namespace Interpreter

variable {i : Interpreter σ π} {tables : Tables} {a : Allotment} {s : Site σ π}

/-- An operator with an elementwise kernel that was prepared and an output that has an element, whose
turn comes in a run on a site: the operators before it run to completion. -/
structure ElementwiseTurn (i : Interpreter σ π) (tables : Tables) (s : Site σ π) where
  index : Nat
  operator : Operator
  arithmetic : Arithmetic
  free : σ → σ
  /-- The tensor that is written. -/
  output : Nat
  result : Tensor
  /-- The site when the operators before it have run. -/
  before : Site σ π
  kernel_eq : (i.graph.operators.zip i.kernels)[index]? =
    some (operator, Elementwise.kernel arithmetic free)
  prepared : ∃ grant data, (Elementwise.kernel arithmetic free).Prepares
    (.of i.graph.toGraph operator) grant data
  output_eq : operator.outputs[0]? = some (some output)
  result_eq : i.graph.tensors[output]? = some result
  hasElement : 0 < result.shape.dims.prod
  completed : (i.runFirst tables index).exec s = (.ok (), before)

/-- What becomes of it: from elements `ls` of one input and `rs` of another it makes the elements `ws`
of its output. -/
structure ElementwiseTurn.Combines (turn : i.ElementwiseTurn tables s) (lhs rhs : Nat)
    (ls rs ws : List Nat) (o : Operands) (after : Site σ π) : Prop where
  lhs_eq : turn.operator.inputs[0]? = some (some lhs)
  rhs_eq : turn.operator.inputs[1]? = some (some rhs)
  reads_lhs : i.Reads turn.before lhs turn.result.dtype ls
  reads_rhs : i.Reads turn.before rhs turn.result.dtype rs
  bound : turn.before.bound i.graph.toGraph turn.operator tables turn.index i.context = .ok o
  /-- The kernel succeeds on what is bound, and leaves all values outside the arena as they are. -/
  succeeds : ∀ outside, ∃ left,
    (Elementwise.kernel turn.arithmetic turn.free).invoke.run (o, outside) = (.ok (), left, outside)
  /-- The run goes on with the next operator. -/
  completed : (i.runFirst tables (turn.index + 1)).exec s = (.ok (), after)
  reads_output : i.Reads after turn.output turn.result.dtype ws
  length_eq : ws.length = turn.result.shape.dims.prod
  elements : Elementwise.Combines turn.arithmetic turn.result.dtype ls rs ws
  /-- No byte outside the output changes. -/
  unchanged : ∀ x,
    (∀ handle, i.tensor after turn.output = .ok handle → ¬ handle.slice.range.Covers x) →
      after.memory.get x = turn.before.memory.get x

namespace Lodged

/-- A kernel sees an input that has an element as a reader does. -/
theorem input_seen (h : i.Lodged tables a s.memory) (hhold : s.hold ≠ .exclusive) {k : Nat}
    {op : Operator} (hop : i.graph.operators[k]? = some op) {row : OpRow} {context : Option Int}
    {o : Operands} (ho : o = s.memory.operands op row context (a.sources i.graph.toGraph op row))
    {j id : Nat} (hj : op.inputs[j]? = some (some id)) {t : Tensor}
    (ht : i.graph.tensors[id]? = some t) (hpos : 0 < t.shape.dims.prod) :
    ∃ slice, i.tensor s id = .ok ⟨t, slice⟩ ∧ t.Readable 0 slice ∧
      o.input j = .ok ⟨t.shape, t.dtype, slice⟩ := by
  have hget : o.inputs[j]? = some (s.memory.input (a.source i.graph.toGraph (some id))) := by
    rw [ho]
    show ((op.inputs.map (a.source i.graph.toGraph)).map s.memory.input)[j]? = _
    rw [List.getElem?_map, List.getElem?_map, hj]
    rfl
  have hands := h.handsInput hhold hop (List.mem_of_getElem? hj)
  obtain ⟨t', slice, hread, hinput⟩ : ∃ t' slice, i.tensor s id = .ok ⟨t', slice⟩ ∧
      (o.inputs[j]? = some (.shared t' slice) ∨ o.inputs[j]? = some (.var t' slice)) := by
    revert hands hget
    cases s.memory.input (a.source i.graph.toGraph (some id)) with
    | absent => exact fun _ hands => hands.elim
    | shared t' slice => exact fun hget hands => ⟨t', slice, hands.1, .inl hget⟩
    | var t' slice => exact fun hget hands => ⟨t', slice, hands.1, .inr hget⟩
  cases ht.symm.trans (h.tensor_ok hread).1
  have hreadable := h.handle_readable (fun _ => Nat.dvd_zero _) (.inl hread) hpos
  exact ⟨slice, hread, hreadable, Operands.input_eq hinput hreadable.viewOf_eq⟩

/-- So does it see an output. -/
theorem output_seen (h : i.Lodged tables a s.memory) (hhold : s.hold ≠ .exclusive) {k : Nat}
    {op : Operator} (hop : i.graph.operators[k]? = some op) {row : OpRow} {context : Option Int}
    {o : Operands} (ho : o = s.memory.operands op row context (a.sources i.graph.toGraph op row))
    {j id : Nat} (hj : op.outputs[j]? = some (some id)) {t : Tensor}
    (ht : i.graph.tensors[id]? = some t) (hpos : 0 < t.shape.dims.prod) :
    ∃ slice, t.Readable 0 slice ∧ o.outputs[j]? = some (some (t, slice)) ∧
      o.output j = .ok ⟨t.shape, t.dtype, slice⟩ := by
  have hget : o.outputs[j]? = some (s.memory.output (a.source i.graph.toGraph (some id))) := by
    rw [ho]
    show ((op.outputs.map (a.source i.graph.toGraph)).map s.memory.output)[j]? = _
    rw [List.getElem?_map, List.getElem?_map, hj]
    rfl
  have hands := h.handsOutput hhold hop (List.mem_of_getElem? hj)
  obtain ⟨t', slice, hread, houtput⟩ : ∃ t' slice, i.tensor s id = .ok ⟨t', slice⟩ ∧
      o.outputs[j]? = some (some (t', slice)) := by
    revert hands hget
    cases s.memory.output (a.source i.graph.toGraph (some id)) with
    | none => exact fun _ hands => hands.elim
    | some out => exact fun hget hands => ⟨out.1, out.2, hands.1, hget⟩
  cases ht.symm.trans (h.tensor_ok hread).1
  have hreadable := h.handle_readable (fun _ => Nat.dvd_zero _) (.inl hread) hpos
  exact ⟨slice, hreadable, houtput, Operands.output_eq houtput hreadable.viewOf_eq⟩

end Lodged

namespace ElementwiseTurn

variable (turn : i.ElementwiseTurn tables s)

theorem operator_eq : i.graph.operators[turn.index]? = some turn.operator :=
  (List.getElem?_zip_eq_some.mp turn.kernel_eq).1

/-- The declarations of the inputs, as preparation found them. -/
theorem exists_inputs : ∃ lhs rhs l r, turn.operator.inputs[0]? = some (some lhs) ∧
    turn.operator.inputs[1]? = some (some rhs) ∧ i.graph.tensors[lhs]? = some l ∧
    i.graph.tensors[rhs]? = some r ∧ Elementwise.supports turn.result.dtype = true ∧
    Elementwise.Suits l turn.result ∧ Elementwise.Suits r turn.result := by
  obtain ⟨grant, data, hprepares⟩ := turn.prepared
  obtain ⟨l, r, out, hl, hr, hout, hsupports, hleft, hright⟩ :=
    Elementwise.operands_of_check (Elementwise.check_of_prepares hprepares)
  obtain ⟨lhs, hlhs, htl⟩ := Signature.input?_of hl
  obtain ⟨rhs, hrhs, htr⟩ := Signature.input?_of hr
  obtain ⟨id, hid, hresult⟩ := Signature.output?_of hout
  rw [turn.output_eq, Option.some.injEq, Option.some.injEq] at hid
  rw [← hid, turn.result_eq, Option.some.injEq] at hresult
  subst hresult
  exact ⟨lhs, rhs, l, r, hlhs, hrhs, htl, htr, hsupports, hleft, hright⟩

/-- The output has bytes in the arena, so the scratch rows have numbers and the operator is bound. -/
theorem exists_bound (hl : i.Lodged tables a s.memory) (hmade : i.Made) : ∃ grant,
    a.grants[turn.index]? = some grant ∧
    turn.before.bound i.graph.toGraph turn.operator tables turn.index i.context =
      .ok (turn.before.memory.operands turn.operator (a.rowOf turn.index grant) i.context
        (a.sources i.graph.toGraph turn.operator (a.rowOf turn.index grant))) := by
  have hb := hl.runFirst turn.completed
  obtain ⟨grant, hg⟩ := hb.fits.exists_grant turn.operator_eq
  have hmem := Operator.mem_outputIds.mpr (List.mem_of_getElem? turn.output_eq)
  obtain ⟨⟨t, ht, hkind⟩, -⟩ := i.graph.rules.write _ _ turn.operator_eq _ hmem
  have hs := Graph.stored_of_operand turn.operator_eq (List.mem_append_right _ hmem) ht
    (Tensor.data_of_kind_activation hkind).1
  rw [turn.result_eq, Option.some.injEq] at ht
  subst ht
  have hvalid := (Graph.valid_of_check i.graph.checked).tensor _ (List.mem_of_getElem? turn.result_eq)
  have hnumber : i.graph.toGraph.NumbersScratch turn.before.memory :=
    .inr (.inr ⟨_, _, hs, hvalid.size_pos turn.hasElement⟩)
  have hbindable : a.Bindable i.graph.toGraph turn.before.memory :=
    ⟨hb.fits.scratch_numbered hb.start_le hnumber, hb.start_le, hmade.inputs, hmade.outputs⟩
  exact ⟨grant, hg, Allotment.bound_eq i.graph.rules hb.fits hb.settled hbindable turn.operator_eq hg
    i.context⟩

theorem combines (hl : i.Lodged tables a s.memory) (hhold : s.hold ≠ .exclusive) (hmade : i.Made) :
    ∃ lhs rhs ls rs ws o after, turn.Combines lhs rhs ls rs ws o after := by
  have hb := hl.runFirst turn.completed
  have hshared : turn.before.hold ≠ .exclusive :=
    (hl.wrote_runFirst turn.completed).hold_eq ▸ hhold
  have hvalid : ∀ {id : Nat} {t : Tensor}, i.graph.tensors[id]? = some t → t.Valid := fun ht =>
    (Graph.valid_of_check i.graph.checked).tensor _ (List.mem_of_getElem? ht)
  obtain ⟨lhs, rhs, l, r, hlhs, hrhs, htl, htr, hsupports, hleft, hright⟩ := turn.exists_inputs
  obtain ⟨grant, hg, hbound⟩ := turn.exists_bound hl hmade
  have hcountLeft := hleft.count_eq (hvalid htl) (hvalid turn.result_eq)
  have hcountRight := hright.count_eq (hvalid htr) (hvalid turn.result_eq)
  have hpos := turn.hasElement
  generalize ho : turn.before.memory.operands turn.operator (a.rowOf turn.index grant) i.context
    (a.sources i.graph.toGraph turn.operator (a.rowOf turn.index grant)) = o at hbound
  -- The kernel sees its three operands as a reader finds them, each with elements to read.
  obtain ⟨left, hleftRead, hleftReadable, hleftSeen⟩ :=
    hb.input_seen hshared turn.operator_eq ho.symm hlhs htl (by omega)
  obtain ⟨right, hrightRead, hrightReadable, hrightSeen⟩ :=
    hb.input_seen hshared turn.operator_eq ho.symm hrhs htr (by omega)
  obtain ⟨old, holdReadable, holdGet, holdSeen⟩ :=
    hb.output_seen hshared turn.operator_eq ho.symm turn.output_eq turn.result_eq hpos
  obtain ⟨ls, hlslen, hls, -⟩ := hleftReadable.elements
  obtain ⟨rs, hrslen, hrs, -⟩ := hrightReadable.elements
  obtain ⟨os, hoslen, hos, -⟩ := holdReadable.elements
  have hlsView : (View.mk l.shape l.dtype left).elements turn.result.dtype = .ok ls := by
    rw [← hleft.dtype_eq]
    exact hls
  have hrsView : (View.mk r.shape r.dtype right).elements turn.result.dtype = .ok rs := by
    rw [← hright.dtype_eq]
    exact hrs
  obtain ⟨ws, hwslen, hfit, hcombines, hrun⟩ :=
    Elementwise.invoke_eq turn.arithmetic turn.free hleftSeen hrightSeen holdSeen hsupports hlsView
      hrsView hos (by rw [hlslen, hoslen]; exact hcountLeft)
      (by rw [hrslen, hoslen]; exact hcountRight)
  -- With that the run goes on, and the output alone is put back with other bytes.
  obtain ⟨after, hexec, hran⟩ := Pass.runOperator_of_succeeds i.activeProfiler hbound
    (congrArg Prod.fst (hrun turn.before.outside))
  obtain ⟨hread, hunchanged⟩ := hb.ran_output hshared turn.operator_eq hbound hran turn.output_eq
    holdGet (congrArg (fun p => p.2.1) (hrun turn.before.outside)) (Bytes.length_overlay _ _)
  have hwrote := Allotment.wrote_of_ran i.graph.rules hb.fits hb.settled turn.operator_eq hbound hran
  have hlater : i.Lodged tables a after.memory := hb.wrote hwrote rfl hb.tables_eq
  have hwords := Slice.elements_store (by rw [hwslen, hoslen, holdReadable.length_eq]) hfit
    (hlater.handle_readable (fun _ => Nat.dvd_zero _) (.inl hread) hpos)
  refine ⟨lhs, rhs, ls, rs, ws, o, after, hlhs, hrhs, ⟨_, hleftRead, hlsView⟩,
    ⟨_, hrightRead, hrsView⟩, hbound, fun outside => ⟨_, hrun outside⟩,
    (runFirst_succ turn.kernel_eq turn.completed).trans hexec, ⟨_, hread, hwords⟩,
    hwslen.trans hoslen, hcombines, fun x hx => hunchanged x ?_⟩
  have hsame : (old.store turn.result.dtype.size ws).range = old.range :=
    congrArg (ByteRange.mk old.address) (Bytes.length_overlay _ _)
  rw [← hsame]
  exact hx _ hread

end ElementwiseTurn

end Interpreter

namespace Tenancy

/-- Whatever tenants and the holder did before, when the turn of an elementwise operator comes, its
kernel succeeds. Every element of the output comes from an element of each input, at the same place or
the only one that there is; integers wrap around. No byte outside the output changes. -/
theorem run_combines_elements {s : Site σ π} (hs : s.Sound) (actions : List (Action σ π)) {n : Nat}
    {i : Interpreter σ π} (hi : ((start s).run actions).tenant? n = some i) {tables : Tables}
    (htables : i.state.tables? = some tables) (hhold : ((start s).run actions).site.hold ≠ .exclusive)
    (turn : i.ElementwiseTurn tables ((start s).run actions).site) :
    ∃ lhs rhs ls rs ws o after, turn.Combines lhs rhs ls rs ws o after := by
  have ht := ((start_sound hs).run actions).tenants n i hi
  obtain ⟨a, hl, -⟩ := ht.lodged tables htables
  exact turn.combines hl hhold ht.made

/-- A tensor is added to itself, and a constant of one element multiplied by the sum. -/
def scaling : Graph where
  name := "scaling"
  tensors := [.activation "input" .u8 (.vector 3), Graph.Sample.number "two" .u8 2,
    .activation "sum" .u8 (.vector 3), .activation "output" .u8 (.vector 3)]
  operators := [⟨"double", .add, [some 0, some 0], [some 2]⟩,
    ⟨"scale", .mul, [some 1, some 2], [some 3]⟩]
  inputs := [0]
  outputs := [3]

theorem scaling_check : scaling.check = .ok () :=
  rfl

def scalingStart : Site Unit Unit :=
  .ofBuffer 0 (.replicate 400 255) () ()

def scalingTenant : List (Action Unit Unit) :=
  [.enter ⟨scaling, scaling_check⟩ (Registry.samples id).resolver]

def scalingActions : List (Action Unit Unit) :=
  [.equip 0 ⟨.linear, Strategy.linear_sound⟩ none true, .allocate 0, .write 0 0 [100, 3, 7]]

/-- The store before the tenant runs. -/
def scalingTenancy : Tenancy Unit Unit :=
  (start scalingStart).run (scalingTenant ++ scalingActions)

def scalingTables : Tables :=
  ⟨368, 336, 0⟩

/-- What the tenant reads when the first of its operators have run, so many of them. -/
def scalingRead (i : Interpreter Unit Unit) (count id : Nat) : Option (List Nat) :=
  (i.tensor ((i.runFirst scalingTables count).exec scalingTenancy.site).2 id).toOption.bind fun h =>
    (h.elements .u8).toOption

theorem eq_of_scalingRead {i : Interpreter Unit Unit} {count id : Nat} {ws ws' : List Nat}
    {s : Site Unit Unit} (h : scalingRead i count id = some ws)
    (hs : (i.runFirst scalingTables count).exec scalingTenancy.site = (.ok (), s))
    (h' : i.Reads s id .u8 ws') : ws' = ws := by
  obtain ⟨handle, hread, helements⟩ := h'
  rw [scalingRead, hs, hread] at h
  exact Option.some.inj ((congrArg Except.toOption helements).symm.trans h)

/-- Both operators have their turn; the second one finds the sums that the first one wrote. -/
theorem scalingTenancy_reads : (scalingTenancy.tenant? 0).map (fun i =>
      (i.state, ((i.runFirst scalingTables 1).exec scalingTenancy.site).1,
        [scalingRead i 1 1, scalingRead i 1 2, scalingRead i 2 3])) =
    some (.allocated scalingTables, .ok (), [some [2], some [200, 6, 14], some [144, 12, 28]]) := by
  decide +kernel

/-- The constant is read at its one element, and the greatest product wraps around. -/
theorem run_combines_elements_of_scaling :
    ∃ (i : Interpreter Unit Unit) (turn : i.ElementwiseTurn scalingTables scalingTenancy.site)
      (o : Operands) (after : Site Unit Unit),
      scalingTenancy.tenant? 0 = some i ∧ turn.index = 1 ∧ turn.arithmetic = .mul ∧
        turn.Combines 1 2 [2] [200, 6, 14] [144, 12, 28] o after := by
  have hsound : scalingStart.Sound := Site.ofBuffer_sound ..
  obtain ⟨i, hi, heq⟩ := Option.map_eq_some_iff.mp scalingTenancy_reads
  simp only [Prod.mk.injEq, List.cons.injEq] at heq
  obtain ⟨hstate, hok, hlhs, hrhs, houtput, -⟩ := heq
  have hrun : ((start scalingStart).run scalingTenant).run scalingActions = scalingTenancy :=
    (List.foldl_append ..).symm
  have hcompleted : (i.runFirst scalingTables 1).exec scalingTenancy.site =
      (.ok (), ((i.runFirst scalingTables 1).exec scalingTenancy.site).2) :=
    Prod.ext hok rfl
  -- The tenant has the kernels that it moved in with.
  have hentered : ((start scalingStart).run scalingTenant).tenant? 0 = some _ := rfl
  obtain ⟨hgraph, hkernels⟩ := same_run hentered scalingActions (hrun ▸ hi)
  let turn : i.ElementwiseTurn scalingTables scalingTenancy.site :=
    { index := 1
      operator := ⟨"scale", .mul, [some 1, some 2], [some 3]⟩
      arithmetic := .mul
      free := id
      output := 3
      result := .activation "output" .u8 (.vector 3)
      before := ((i.runFirst scalingTables 1).exec scalingTenancy.site).2
      kernel_eq := by
        rw [hgraph, hkernels]
        rfl
      prepared := by
        rw [hgraph]
        exact ⟨{}, [], Unit, scalingStart, scalingStart, hsound, rfl, rfl⟩
      output_eq := rfl
      result_eq := by
        rw [hgraph]
        rfl
      hasElement := by decide
      completed := hcompleted }
  obtain ⟨lhs, rhs, ls, rs, ws, o, after, h⟩ :=
    run_combines_elements hsound (scalingTenant ++ scalingActions) hi (by rw [hstate]; rfl)
      (by decide +kernel) turn
  obtain rfl : 1 = lhs := Option.some.inj (Option.some.inj h.lhs_eq)
  obtain rfl : 2 = rhs := Option.some.inj (Option.some.inj h.rhs_eq)
  obtain rfl := eq_of_scalingRead hlhs hcompleted h.reads_lhs
  obtain rfl := eq_of_scalingRead hrhs hcompleted h.reads_rhs
  obtain rfl := eq_of_scalingRead houtput h.completed h.reads_output
  exact ⟨i, turn, o, after, hi, rfl, rfl, h⟩

end Tenancy

end TensorArena
