import TensorArena.Proofs.Interpreter.Failure
import TensorArena.Proofs.Reference.Tracks

/-!
# What a failing kernel can reach

The slices of a kernel against the tensors that readers find. Its operands are handed to it as they
are found, no two of the slices that it may write share a byte, and its scratch blocks and persistent
data lie apart from all tensors and from the data of other operators: `Confined`. So a kernel that
fails half-way spoils its own outputs and variables, and of the other tensors only such as nobody needs
any more. `Inspectable` says what is left to its owner: every tensor can be read, and none written.
-/

namespace TensorArena

variable {σ π : Type}

/-- A slice of the workspace of an operator has the range of a scratch block or of its persistent
data. -/
theorem Memory.exists_range_of_workspace {m : Memory} {op : Operator} {row : OpRow}
    {context : Option Int} {b : Sources} {slice : Slice}
    (h : slice ∈ (m.operands op row context b).scratch ∨
      slice = (m.operands op row context b).userData) :
    ∃ r ∈ b.scratch ++ [row.userRange], slice = m.slice r := by
  rcases h with hscratch | rfl
  · obtain ⟨r, hr, rfl⟩ := List.mem_map.mp hscratch
    exact ⟨r, List.mem_append_left _ hr, rfl⟩
  · exact ⟨_, List.mem_append_right _ (List.mem_singleton_self _), rfl⟩

namespace Interpreter

/-- An input is handed to a kernel as a reader finds the tensor; a variable can be written. -/
def HandsInput (i : Interpreter σ π) (s : Site σ π) : Option Nat → Input → Prop
  | none, .absent => True
  | some id, .shared t slice => i.tensor s id = .ok ⟨t, slice⟩ ∧ t.kind ≠ .var
  | some id, .var t slice => i.tensor s id = .ok ⟨t, slice⟩ ∧ t.kind = .var
  | _, _ => False

/-- So is an output. -/
def HandsOutput (i : Interpreter σ π) (s : Site σ π) : Option Nat → Option (Tensor × Slice) → Prop
  | none, none => True
  | some id, some (t, slice) => i.tensor s id = .ok ⟨t, slice⟩ ∧ t.kind = .activation
  | _, _ => False

/-- What a kernel that fails was handed, and where it may write. -/
structure FirstFailure.Confined {i : Interpreter σ π} {tables : Tables} {s : Site σ π}
    (f : i.FirstFailure tables s) (owns : Nat → Prop) : Prop where
  inputs : List.Forall₂ (i.HandsInput f.before) f.operator.inputs f.operands.inputs
  outputs : List.Forall₂ (i.HandsOutput f.before) f.operator.outputs f.operands.outputs
  /-- No two of the slices that it may write share a byte. -/
  apart : (f.operands.writable.map Slice.range).Pairwise ByteRange.Apart
  /-- Its scratch blocks and its persistent data are apart from every tensor in the arena. -/
  workspace : ∀ slice, slice ∈ f.operands.scratch ∨ slice = f.operands.userData →
    ∀ id t own, i.graph.toGraph.Stored id t → i.tensor f.before id = .ok ⟨t, own⟩ →
      slice.range.Apart own.range
  /-- All its slices are apart from the persistent data of the other operators. -/
  others : ∀ k op o, k ≠ f.index → i.graph.operators[k]? = some op →
    f.before.bound i.graph.toGraph op tables k i.context = .ok o →
    ∀ slice ∈ f.operands.writable, slice.range.Apart o.userData.range
  owned : ∀ x, f.operands.Writes x → owns x

/-- What the owner of an interpreter can still do with the tensors after a kernel failed. -/
structure FirstFailure.Inspectable {i : Interpreter σ π} {tables : Tables} {s : Site σ π}
    (f : i.FirstFailure tables s) (i' : Interpreter σ π) (s' : Site σ π) : Prop where
  /-- What could be read before the invocation can be read, and has as many bytes. -/
  readable : ∀ id handle, i.tensor s id = .ok handle → ∃ bytes : Bytes,
    bytes.length = handle.slice.bytes.length ∧
      i'.tensor s' id = .ok ⟨handle.tensor, ⟨handle.slice.address, bytes⟩⟩
  /-- Every tensor in the arena is read from the place where it was before. -/
  placed : ∀ id t, i.graph.toGraph.Stored id t → ∃ place : ByteRange, place.length = t.size ∧
    i.tensor s id = .ok ⟨t, s.memory.slice place⟩ ∧
    i.tensor f.before id = .ok ⟨t, f.before.memory.slice place⟩ ∧
    i'.tensor s' id = .ok ⟨t, s'.memory.slice place⟩
  constants : ∀ (id : Nat) t data, i.graph.tensors[id]? = some t → t.data = some data →
    i'.tensor s' id = .ok ⟨t, ⟨0, data.toBytes⟩⟩
  /-- What the failing operator does not write reads as before it, while it is still needed. -/
  kept : ∀ id t, i.graph.toGraph.Stored id t → id ∉ f.operator.targets i.graph.toGraph →
    (∀ l, i.graph.toGraph.Planned id l → l.AliveAt f.index) →
    i'.tensor s' id = i.tensor f.before id
  refused : ∀ (s'' : Site σ π) id, i'.writableTensor s'' id = .error (.notAllocated "failed")

/-! ## Handing out tensors -/

namespace Lodged

variable {i : Interpreter σ π} {tables : Tables} {a : Allotment} {s : Site σ π}

/-- A tensor in the arena is read where its range is. -/
theorem tensor_stored (h : i.Lodged tables a s.memory) (hhold : s.hold ≠ .exclusive) {id : Nat}
    {t : Tensor} (hs : i.graph.toGraph.Stored id t) :
    i.tensor s id = .ok ⟨t, s.memory.slice (a.rangeOf id)⟩ := by
  obtain ⟨span, hspan, -⟩ := h.fits.stored hs
  rw [h.tensor_eq hhold hs hspan, Allotment.rangeOf_eq hspan]
  rfl

/-- What can be read is a tensor in the arena or a constant. -/
theorem tensor_ok (h : i.Lodged tables a s.memory) {id : Nat} {handle : Handle}
    (hread : i.tensor s id = .ok handle) : i.graph.tensors[id]? = some handle.tensor ∧
      (i.graph.toGraph.Stored id handle.tensor ∨ ∃ data, handle.tensor.data = some data) := by
  unfold Interpreter.tensor at hread
  obtain ⟨⟨t, span⟩, hloc, hread⟩ := bind_ok hread
  obtain ⟨ht, hspan⟩ := h.locate hloc
  dsimp only at hread
  split at hread
  · rename_i data hd
    cases hread
    exact ⟨ht, .inr ⟨data, hd⟩⟩
  · rename_i hd
    split at hread
    · cases hread
    · rename_i hplaced
      obtain ⟨slice, -, hread⟩ := bind_ok hread
      cases hread
      have hs := h.fits.stored_of_isPlaced ht hd hspan (Decidable.not_not.mp hplaced)
      exact ⟨ht, .inl hs⟩

theorem handsInput (h : i.Lodged tables a s.memory) (hhold : s.hold ≠ .exclusive) {k : Nat}
    {op : Operator} (hop : i.graph.operators[k]? = some op) {o : Option Nat} (ho : o ∈ op.inputs) :
    i.HandsInput s o (s.memory.input (a.source i.graph.toGraph o)) := by
  cases o with
  | none => exact trivial
  | some id =>
    have hid : id ∈ op.operandIds := List.mem_append_left _ (Operator.mem_inputIds.mpr ho)
    obtain ⟨t, ht⟩ := i.graph.rules.exists_operand (List.mem_of_getElem? hop) hid
    cases hd : t.data with
    | some data =>
      rw [Allotment.source_eq_of_constant h.fits ht hd]
      exact ⟨h.tensor_constant hhold ht hd, Tensor.kind_ne_var hd⟩
    | none =>
      have hread := h.tensor_stored hhold (Graph.stored_of_operand hop hid ht hd)
      rw [Allotment.source_eq_of_data h.fits ht hd, Memory.input_placed]
      split
      · rename_i hvar
        exact ⟨hread, Tensor.kind_eq_var hd hvar⟩
      · rename_i hvar
        exact ⟨hread, fun hkind => hvar ((Tensor.kind_eq_var_iff hd).mp hkind)⟩

theorem handsOutput (h : i.Lodged tables a s.memory) (hhold : s.hold ≠ .exclusive) {k : Nat}
    {op : Operator} (hop : i.graph.operators[k]? = some op) {o : Option Nat} (ho : o ∈ op.outputs) :
    i.HandsOutput s o (s.memory.output (a.source i.graph.toGraph o)) := by
  cases o with
  | none => exact trivial
  | some id =>
    have hout := Operator.mem_outputIds.mpr ho
    obtain ⟨⟨t, ht, hkind⟩, -⟩ := i.graph.rules.write k op hop id hout
    have hd := (Tensor.data_of_kind_activation hkind).1
    have hs := Graph.stored_of_operand hop (List.mem_append_right _ hout) ht hd
    rw [Allotment.source_eq_of_data h.fits ht hd]
    exact ⟨h.tensor_stored hhold hs, hkind⟩

/-- The first operators write within reach. -/
theorem wrote_runFirst (h : i.Lodged tables a s.memory) {count : Nat} {before : Site σ π}
    (hrun : (i.runFirst tables count).exec s = (.ok (), before)) : s.Wrote a.Reach before := by
  have hruns := Allotment.runAll_wrote i.graph.rules h.fits h.settled i.activeProfiler i.context
    ((i.graph.operators.zip i.kernels).take count) fun j op k hj => ?_
  · exact hruns.of_ok hrun
  · rw [List.getElem?_take] at hj
    split at hj
    · exact (List.getElem?_zip_eq_some.mp hj).1
    · cases hj

theorem runFirst (h : i.Lodged tables a s.memory) {count : Nat} {before : Site σ π}
    (hrun : (i.runFirst tables count).exec s = (.ok (), before)) :
    i.Lodged tables a before.memory :=
  h.wrote (h.wrote_runFirst hrun) rfl h.tables_eq

end Lodged

/-! ## Failing kernels -/

namespace FirstFailure

variable {i : Interpreter σ π} {tables : Tables} {a : Allotment} {s : Site σ π}
  (f : i.FirstFailure tables s)

theorem operator_eq : i.graph.operators[f.index]? = some f.operator :=
  (List.getElem?_zip_eq_some.mp f.kernel_eq).1

/-- What the failing kernel was handed, by the allotment. -/
theorem operands_eq (hl : i.Lodged tables a s.memory) :
    ∃ grant, a.grants[f.index]? = some grant ∧
      f.operands = f.before.memory.operands f.operator (a.rowOf f.index grant) i.context
        (a.sources i.graph.toGraph f.operator (a.rowOf f.index grant)) ∧
      (a.claims i.graph.toGraph f.operator (a.rowOf f.index grant)).Pairwise ByteRange.Apart :=
  Allotment.operands_of_bound i.graph.rules hl.fits (hl.runFirst f.completed).settled f.operator_eq f.bound

theorem confined (hl : i.Lodged tables a s.memory) (hhold : s.hold = .free) {owns : Nat → Prop}
    (howns : ∀ x, a.Reach x → owns x) : f.Confined owns := by
  have hb := hl.runFirst f.completed
  have hshared : f.before.hold ≠ .exclusive := by
    rw [(hl.wrote_runFirst f.completed).hold_eq, hhold]
    nofun
  obtain ⟨grant, hg, hoperands, hclaims⟩ := f.operands_eq hl
  refine ⟨?inputs, ?outputs, ?apart, ?workspace, ?others, ?owned⟩
  case inputs =>
    rw [hoperands]
    show List.Forall₂ _ f.operator.inputs ((f.operator.inputs.map _).map f.before.memory.input)
    rw [List.map_map]
    refine List.forall₂_map_right_iff.mpr (List.forall₂_same.mpr fun o ho => ?_)
    exact hb.handsInput hshared f.operator_eq ho
  case outputs =>
    rw [hoperands]
    show List.Forall₂ _ f.operator.outputs ((f.operator.outputs.map _).map f.before.memory.output)
    rw [List.map_map]
    refine List.forall₂_map_right_iff.mpr (List.forall₂_same.mpr fun o ho => ?_)
    exact hb.handsOutput hshared f.operator_eq ho
  case apart =>
    -- Binding has checked that what the operator claims is apart, and the kernel may write no more.
    rw [hoperands, Allotment.map_range_writable hb.fits hb.start_le f.operator_eq hg]
    exact hclaims.sublist (Allotment.writable_sublist hb.fits hg)
  case workspace =>
    intro slice hslice id t own hs hread x hx hx'
    rw [hb.tensor_stored hshared hs] at hread
    cases hread
    rw [hoperands] at hslice
    obtain ⟨r, hr, rfl⟩ := Memory.exists_range_of_workspace hslice
    exact Allotment.workspace_apart_tensor hb.fits hg hs hr x (Memory.covers_of_covers_slice hx)
      (Memory.covers_of_covers_slice hx')
  case others =>
    intro k op o hne hop hbound slice hslice x hx hx'
    obtain ⟨grant', hg', rfl, -⟩ :=
      Allotment.operands_of_bound i.graph.rules hb.fits hb.settled hop hbound
    rw [hoperands] at hslice
    obtain ⟨r, hr, rfl⟩ := Memory.exists_range_of_writable hslice
    exact Allotment.writable_apart_userRange hb.fits f.operator_eq hg hg' (Ne.symm hne) hr x
      (Memory.covers_of_covers_slice hx) (Memory.covers_of_covers_slice hx')
  case owned =>
    intro x hx
    obtain ⟨slice, hslice, hcovers⟩ := Operands.writes_iff.mp hx
    rw [hoperands] at hslice
    exact howns x (hb.fits.reach_writable f.operator_eq hg hslice hcovers)

/-- Of a tensor that the operator does not write, the failing kernel changed no byte. -/
theorem agreeOn_kept (hl : i.Lodged tables a s.memory) {s' : Site σ π} (hstopped : f.Stopped s')
    {id : Nat} {t : Tensor} (hs : i.graph.toGraph.Stored id t)
    (hnot : id ∉ f.operator.targets i.graph.toGraph)
    (halive : ∀ l, i.graph.toGraph.Planned id l → l.AliveAt f.index) :
    f.before.memory.AgreeOn s'.memory (a.rangeOf id) := by
  have hb := hl.runFirst f.completed
  obtain ⟨grant, hg, hoperands, -⟩ := f.operands_eq hl
  have hmemory : s'.memory = f.before.memory.writeBack f.operands f.left :=
    congrArg Arena.memory hstopped.arena_eq
  refine ⟨by rw [hmemory, Memory.size_writeBack], fun x hx => hstopped.unchanged x fun hwrites => ?_⟩
  obtain ⟨slice, hslice, hcovers⟩ := Operands.writes_iff.mp hwrites
  rw [hoperands] at hslice
  obtain ⟨r, hr, rfl⟩ := Memory.exists_range_of_writable hslice
  exact Allotment.writable_apart_tensor i.graph.rules hb.fits f.operator_eq hg hs
    (fun y hy => Allotment.target_apart_tensor i.graph.rules hb.fits f.operator_eq hs halive hnot hy)
    hr x (Memory.covers_of_covers_slice hcovers) hx

theorem inspectable (hl : i.Lodged tables a s.memory) (hhold : s.hold = .free) {s' : Site σ π}
    (hstate : i.state = .allocated tables) (hstopped : f.Stopped s')
    (hinvoke : i.invoke s = (.error f.error, { i with state := .failed (some tables) }, s')) :
    f.Inspectable { i with state := .failed (some tables) } s' := by
  have hb := hl.runFirst f.completed
  have hw : s.Wrote a.Reach s' := by
    have hwrote := (runOnce_wrote hl).1
    rwa [← invoke_of_allocated hstate, hinvoke] at hwrote
  have hl' : Lodged { i with state := .failed (some tables) } tables a s'.memory := hl.wrote hw rfl rfl
  have hfree : ∀ {s₁ : Site σ π}, s.Wrote a.Reach s₁ → s₁.hold ≠ .exclusive := by
    intro s₁ h₁
    rw [h₁.hold_eq, hhold]
    nofun
  refine ⟨?readable, ?placed, ?constants, ?kept, ?refused⟩
  case readable =>
    intro id handle hread
    obtain ⟨ht, hfound⟩ := hl.tensor_ok hread
    obtain ⟨t, slice⟩ := handle
    rcases hfound with hs | ⟨data, hd⟩
    · cases (hl.tensor_stored (hfree (.refl s)) hs).symm.trans hread
      refine ⟨s'.memory.piece (a.rangeOf id), ?_, hl'.tensor_stored (hfree hw) hs⟩
      simp only [Memory.slice, Memory.piece, Memory.length_read, hw.size_eq]
    · cases (hl.tensor_constant (hfree (.refl s)) ht hd).symm.trans hread
      exact ⟨_, rfl, hl'.tensor_constant (hfree hw) ht hd⟩
  case placed =>
    intro id t hs
    obtain ⟨span, hspan, -, hlen, -⟩ := hl.fits.stored hs
    refine ⟨a.rangeOf id, ?_, hl.tensor_stored (hfree (.refl s)) hs,
      hb.tensor_stored (hfree (hl.wrote_runFirst f.completed)) hs, hl'.tensor_stored (hfree hw) hs⟩
    rw [Allotment.rangeOf_eq hspan, hlen]
  case constants =>
    intro id t data ht hd
    exact hl'.tensor_constant (hfree hw) ht hd
  case kept =>
    intro id t hs hnot halive
    rw [hl'.tensor_stored (hfree hw) hs, hb.tensor_stored (hfree (hl.wrote_runFirst f.completed)) hs,
      Memory.slice, Memory.slice, (f.agreeOn_kept hl hstopped hs hnot halive).piece_eq]
  case refused =>
    intro s'' id
    rfl

end FirstFailure

end Interpreter

end TensorArena
