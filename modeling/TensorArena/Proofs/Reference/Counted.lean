import TensorArena.Proofs.Graph.Accepted
import TensorArena.Proofs.Reference.Counting
import TensorArena.Proofs.Reference.Reached
import TensorArena.Proofs.Reference.Stateful

/-!
# Counts in what runs lead to

For a graph of one operator, what `Stores.Reached` says is a count. The kernel with a state has its
runs in its persistent data, and what it reports next is the median of its input and one more. The
counting kernel has them in every element of a variable that nobody else writes. Both counts are
32-bit words and go round.
-/

namespace TensorArena

variable {σ : Type}

namespace Stores

variable {g : Graph} {op : Operator} {f : Meaning} {k : Nat}

/-- What an operator writes is in the stores after it. -/
theorem tensors_step (hc : g.Checked) (hop : g.operators[k]? = some op) {kernel : Kernel σ}
    (hf : kernel.Computes g op f) (v : Stores) {id : Nat} {bytes : Bytes}
    (hmem : (id, bytes) ∈
      (op.targets g).zip (f.apply (op.inputs.map (v.value g)) (v.persistent k)).written) :
    (v.step g op k f).tensors id = bytes := by
  refine v.tensors_putAll_of_mem ?_ hmem
  rw [Operator.map_fst_zip_written (hf.sizes _ _).1]
  exact Operator.targets_nodup hc hop

/-- A run of one operator is its step. -/
theorem run_single (hone : g.operators = [op]) (f : Meaning) (v : Stores) :
    run g (g.operators.zip [f]) 0 v = v.step g op 0 f := by
  rw [hone]
  rfl

end Stores

/-- A count that goes round is a word. -/
theorem DType.i32_mod_lt (n : Nat) : n % DType.i32.modulus < 256 ^ DType.i32.size := by
  rw [show 256 ^ DType.i32.size = DType.i32.modulus by decide]
  exact Nat.mod_lt _ (by decide)

/-- The middle one of the values in ascending order, the upper one if there are two. -/
def IsMedian (m : Nat) (values : List Nat) : Prop :=
  ∃ sorted : List Nat, sorted.Perm values ∧ sorted.Pairwise (· ≤ ·) ∧
    sorted[values.length / 2]? = some m

namespace SampleKernel

variable {g : Graph} {op : Operator} {x y z : Nat} {written : Nat → Prop} {runs : Nat} {v : Stores}

/-! ## The kernel with a state -/

/-- A count in persistent data, and the next one. -/
theorem nextCount_ofWords (n : Nat) :
    nextCount (Bytes.ofWords DType.i32.size [n % DType.i32.modulus]) =
      (n + 1) % DType.i32.modulus := by
  have hwords : Bytes.words DType.i32.size (Bytes.ofWords DType.i32.size [n % DType.i32.modulus]) =
      [n % DType.i32.modulus] :=
    Bytes.words_ofWords (by decide) (List.forall_mem_singleton.mpr (DType.i32_mod_lt n))
  rw [nextCount, hwords, List.headD_cons, Nat.mod_add_mod]

/-- The persistent data count the runs. -/
theorem persistent_of_reached (hone : g.operators = [op])
    (h : Stores.Reached g [reporting g x y z] written runs v) :
    v.persistent 0 = Bytes.ofWords DType.i32.size [runs % DType.i32.modulus] := by
  induction h with
  | start => rfl
  | @run runs v _ ih =>
    rw [Stores.run_single hone]
    show Bytes.overlay (v.persistent 0) (Bytes.ofWords DType.i32.size [nextCount (v.persistent 0)]) = _
    rw [ih, nextCount_ofWords]
    apply Bytes.overlay_eq
    rw [Bytes.length_ofWords, Bytes.length_ofWords]
    rfl
  | change _ hkept ih =>
    rw [hkept.persistent 0 (by rw [hone]; exact Nat.zero_lt_one), ih]

/-- The outputs of the next run: the median of the input, and one run more. -/
theorem outputs_of_reached (hc : g.Checked) (hone : g.operators = [op]) (hinputs : op.inputs = [some x])
    (houtputs : op.outputs = [some y, some z])
    (h : Stores.Reached g [reporting g x y z] written runs v) :
    (Stores.run g (g.operators.zip [reporting g x y z]) 0 v).tensors y =
        Bytes.filled (g.sizeOf y) DType.u8.size (median (argument [v.value g (some x)] 0)) ∧
      (Stores.run g (g.operators.zip [reporting g x y z]) 0 v).tensors z =
        Bytes.filled (g.sizeOf z) DType.i32.size ((runs + 1) % DType.i32.modulus) := by
  have hop := Graph.operator_of_single hone
  have hcomputes := simpleStateful_computes (id : Unit → Unit) (g := g) hinputs houtputs
  have hread : op.inputs.map (v.value g) = [v.value g (some x)] := by
    rw [hinputs, List.map_singleton]
  have hnext : nextCount (v.persistent 0) = (runs + 1) % DType.i32.modulus := by
    rw [persistent_of_reached hone h, nextCount_ofWords]
  have htargets : op.targets g = (if g.IsVar x then [x] else []) ++ [y, z] :=
    simpleStateful_targets hinputs houtputs
  have hmem : ∀ p ∈ [(y, Bytes.filled (g.sizeOf y) DType.u8.size
        (median (argument [v.value g (some x)] 0))),
      (z, Bytes.filled (g.sizeOf z) DType.i32.size ((runs + 1) % DType.i32.modulus))],
      p ∈ (op.targets g).zip ((reporting g x y z).apply (op.inputs.map (v.value g))
        (v.persistent 0)).written := by
    intro p hp
    rw [hread, htargets]
    by_cases hx : g.IsVar x
    · simpa [reporting, hx, hnext] using .inr (by simpa using hp)
    · simpa [reporting, hx, hnext] using hp
  rw [Stores.run_single hone]
  exact ⟨Stores.tensors_step hc hop hcomputes v (hmem _ (by simp)),
    Stores.tensors_step hc hop hcomputes v (hmem _ (by simp))⟩

theorem isMedian_median {bytes : Bytes} (hne : 0 < bytes.length) :
    IsMedian (median bytes) (Bytes.words DType.u8.size bytes) := by
  have hperm := List.mergeSort_perm (Bytes.words DType.u8.size bytes) fun m n => decide (m ≤ n)
  have hlen : (Bytes.words DType.u8.size bytes).length = bytes.length := by
    rw [Bytes.length_words]
    exact Nat.div_one _
  have hsorted : ((Bytes.words DType.u8.size bytes).mergeSort fun m n => decide (m ≤ n)).Pairwise
      fun m n => decide (m ≤ n) :=
    List.pairwise_mergeSort (fun _ _ _ => by simpa using Nat.le_trans)
      (fun m n => by simpa using Nat.le_total m n) _
  have hlt : bytes.length / 2 < ((Bytes.words DType.u8.size bytes).mergeSort).length := by
    rw [hperm.length_eq, hlen]
    exact Nat.div_lt_self hne (by decide)
  refine ⟨_, hperm, hsorted.imp of_decide_eq_true, ?_⟩
  rw [median, hperm.length_eq, hlen, List.getElem?_eq_getElem hlt]
  rfl

theorem median_lt {bytes : Bytes} (hne : 0 < bytes.length) :
    median bytes < 256 ^ DType.u8.size := by
  obtain ⟨sorted, hperm, -, hmiddle⟩ := isMedian_median hne
  exact Bytes.words_lt (hperm.mem_iff.mp (List.mem_of_getElem? hmiddle))

/-! ## The counting kernel -/

/-- Words that are all alike are counted up alike. -/
theorem countedUp_filled {size size' w : Nat} (hdvd : DType.i32.size ∣ size)
    (hw : w < 256 ^ DType.i32.size) (hsize : size' = size) :
    countedUp size' (Bytes.filled size DType.i32.size w) =
      Bytes.filled size DType.i32.size ((w + 1) % DType.i32.modulus) := by
  rw [countedUp, Bytes.words_filled (by decide) hdvd hw, List.map_replicate, hsize]
  rfl

/-- The next run leaves in the variable and in the output what the variable held, counted up. -/
theorem tensors_counting (hc : g.Checked) (hone : g.operators = [op]) (hinputs : op.inputs = [some x])
    (houtputs : op.outputs = [some y]) (hx : g.IsVar x) (v : Stores) :
    (Stores.run g (g.operators.zip [counting g x y]) 0 v).tensors x =
        countedUp (g.sizeOf x) (v.tensors x) ∧
      (Stores.run g (g.operators.zip [counting g x y]) 0 v).tensors y =
        countedUp (g.sizeOf y) (v.tensors x) := by
  have hop := Graph.operator_of_single hone
  have hcomputes := accumulate_computes (id : Unit → Unit) hx hinputs houtputs
  have hread : op.inputs.map (v.value g) = [some (v.tensors x)] := by
    obtain ⟨t, ht, hkind⟩ := hx
    rw [hinputs, List.map_singleton, v.value_of_data ht (Tensor.data_of_kind_var hkind).1]
  rw [Stores.run_single hone]
  constructor
  · apply Stores.tensors_step hc hop hcomputes
    rw [hread, accumulate_targets hx hinputs houtputs]
    exact List.mem_cons_self
  · apply Stores.tensors_step hc hop hcomputes
    rw [hread, accumulate_targets hx hinputs houtputs]
    exact List.mem_cons_of_mem _ List.mem_cons_self

/-- The variable counts the runs. -/
theorem variable_of_reached (hc : g.Checked) (hone : g.operators = [op]) (hinputs : op.inputs = [some x])
    (houtputs : op.outputs = [some y]) (hx : g.IsVar x) (hdvd : DType.i32.size ∣ g.sizeOf x)
    (hunwritten : ¬ written x) (h : Stores.Reached g [counting g x y] written runs v) :
    v.tensors x = Bytes.filled (g.sizeOf x) DType.i32.size (runs % DType.i32.modulus) := by
  induction h with
  | start => exact (Bytes.filled_zero ..).symm
  | @run runs v _ ih =>
    rw [(tensors_counting hc hone hinputs houtputs hx v).1, ih,
      countedUp_filled hdvd (DType.i32_mod_lt runs) rfl, Nat.mod_add_mod]
  | change _ hkept ih =>
    obtain ⟨t, ht, hkind⟩ := hx
    rw [hkept.vars x t ht hkind hunwritten, ih]

end SampleKernel

/-- How many elements a tensor has. -/
def Graph.elementsOf (g : Graph) (id : Nat) : Nat :=
  (g.tensors[id]?.map fun t => t.shape.elements).getD 0

/-- The tensor has elements of that type. -/
def Graph.Typed (g : Graph) (id : Nat) (d : DType) : Prop :=
  g.tensors[id]?.map Tensor.dtype = some d

instance (g : Graph) (id : Nat) (d : DType) : Decidable (g.Typed id d) :=
  inferInstanceAs (Decidable (g.tensors[id]?.map Tensor.dtype = some d))

theorem Graph.sizeOf_typed {g : CheckedGraph} {id : Nat} {d : DType} (h : g.toGraph.Typed id d) :
    g.toGraph.sizeOf id = g.toGraph.elementsOf id * d.size := by
  obtain ⟨t, ht, rfl⟩ := Option.map_eq_some_iff.mp h
  rw [sizeOf_eq ht, elementsOf, ht]
  exact ((Graph.valid_of_check g.checked).tensor t (List.mem_of_getElem? ht)).size_eq

/-- What an operator writes is live after it. -/
theorem Graph.live_of_written {g : Graph} {k id : Nat} {op : Operator} (hop : g.operators[k]? = some op)
    (hid : id ∈ op.outputIds) : g.Live (k + 1) id where
  hasValue := by
    rw [HasValue, writtenBefore_succ hop]
    exact .inr (List.mem_append_right _ hid)
  needed l hl := by
    have halive := hl.aliveAt (mem_touches.mpr (.inr (.inl ⟨op, hop, List.mem_append_right _ hid⟩)))
    exact Nat.succ_le_succ halive.2

namespace Interpreter

variable {π : Type} {i : Interpreter σ π} {tables : Tables} {a : Allotment} {meanings : List Meaning}
  {written : Nat → Prop} {runs : Nat} {s s' : Site σ π} {op : Operator} {k id : Nat} {d : DType}

/-- The tensor can be read and has those elements. -/
def Reads (i : Interpreter σ π) (s : Site σ π) (id : Nat) (d : DType) (ws : List Nat) : Prop :=
  ∃ handle, i.tensor s id = .ok handle ∧ handle.elements d = .ok ws

/-- The tensor can be read and has that word in every element. -/
def Shows (i : Interpreter σ π) (s : Site σ π) (id : Nat) (d : DType) (w : Nat) : Prop :=
  i.Reads s id d (List.replicate (i.graph.toGraph.elementsOf id) w)

/-- Every operand can be read: it has the value that the arena holds. -/
theorem Lodged.tensor_operand (h : i.Lodged tables a s.memory) (hhold : s.hold = .free)
    (hop : i.graph.operators[k]? = some op) (hid : id ∈ op.operandIds) {t : Tensor}
    (ht : i.graph.tensors[id]? = some t) : ∃ slice, i.tensor s id = .ok ⟨t, slice⟩ ∧
      (a.stores s.memory).value i.graph.toGraph (some id) = some slice.bytes ∧
      arenaAlignment ∣ slice.address := by
  have hne : s.hold ≠ .exclusive := by
    rw [hhold]
    nofun
  cases hd : t.data with
  | some data =>
    exact ⟨_, h.tensor_constant hne ht hd, Stores.value_of_constant _ ht hd, Nat.dvd_zero _⟩
  | none =>
    have hs := Graph.stored_of_operand hop hid ht hd
    obtain ⟨span, hspan, -, -, hdvd, -⟩ := h.fits.stored hs
    refine ⟨_, h.tensor_eq hne hs hspan, ?_, hdvd⟩
    rw [Stores.value_of_data _ ht hd, ← Allotment.rangeOf_eq hspan]
    rfl

/-- An operand of bytes has the value that the arena holds, byte by byte. -/
theorem Lodged.reads_bytes (h : i.Lodged tables a s.memory) (hhold : s.hold = .free)
    (hop : i.graph.operators[k]? = some op) (hid : id ∈ op.operandIds)
    (htyped : i.graph.toGraph.Typed id .u8) :
    i.Reads s id .u8 (Bytes.words DType.u8.size
      (argument [(a.stores s.memory).value i.graph.toGraph (some id)] 0)) := by
  obtain ⟨t, ht, hdtype⟩ := Option.map_eq_some_iff.mp htyped
  obtain ⟨slice, htensor, hvalue, -⟩ := h.tensor_operand hhold hop hid ht
  refine ⟨_, htensor, ?_⟩
  rw [hvalue, Handle.elements, hdtype]
  exact Slice.elements_eq (Nat.one_dvd _) (Nat.one_dvd _)

/-- An operand that is filled with a word shows it. -/
theorem Lodged.shows (h : i.Lodged tables a s.memory) (hhold : s.hold = .free)
    (hop : i.graph.operators[k]? = some op) (hid : id ∈ op.operandIds)
    (htyped : i.graph.toGraph.Typed id d) {w : Nat} (hw : w < 256 ^ d.size)
    (hfilled : (a.stores s.memory).value i.graph.toGraph (some id) =
      some (Bytes.filled (i.graph.toGraph.sizeOf id) d.size w)) : i.Shows s id d w := by
  obtain ⟨t, ht, hdtype⟩ := Option.map_eq_some_iff.mp htyped
  obtain ⟨slice, htensor, hvalue, haddress⟩ := h.tensor_operand hhold hop hid ht
  have hbytes := Option.some.inj (hvalue.symm.trans hfilled)
  have hsize := Graph.sizeOf_typed htyped
  have hdvd : d.size ∣ slice.bytes.length := by
    rw [hbytes, Bytes.length_filled, hsize]
    exact Nat.dvd_mul_left ..
  refine ⟨_, htensor, ?_⟩
  rw [Handle.elements, hdtype, Slice.elements_eq (Nat.dvd_trans d.size_dvd haddress) hdvd]
  rw [hbytes, Bytes.length_filled] at hdvd
  rw [hbytes, Bytes.words_filled d.size_pos hdvd hw, hsize, Nat.mul_div_cancel _ d.size_pos]

/-! ## One run -/

theorem RanOnce.exec_eq (h : i.RanOnce tables a meanings s s') :
    s.hold = .free ∧ (Pass.runAll i.graph.toGraph i.activeProfiler i.context tables
      (i.graph.operators.zip i.kernels) 0).run.run s = (.ok (), s') := by
  have hrun := h.run_eq
  unfold Interpreter.runOnce at hrun
  split at hrun
  · cases hrun
  · rename_i hhold
    split at hrun
    · cases hrun
    · rename_i outcome s'' _ hexec
      cases hrun
      exact ⟨Decidable.not_not.mp hhold, hexec⟩

/-- After a run of the only operator its targets hold what the reference has: nobody uses their bytes
after it. -/
theorem RanOnce.value_eq (h : i.RanOnce tables a meanings s s') (hone : i.graph.operators = [op])
    (hid : id ∈ op.targets i.graph.toGraph) :
    (a.stores s'.memory).value i.graph.toGraph (some id) =
      some ((Stores.run i.graph.toGraph (i.graph.operators.zip meanings) 0
        (a.stores s.memory)).tensors id) := by
  have hop := Graph.operator_of_single hone
  have hoperand := Operator.mem_operandIds_of_mem_targets hid
  have hread : ∀ t, i.graph.tensors[id]? = some t → t.data = none →
      (t.kind = .activation → id ∈ op.outputIds) →
      (a.stores s'.memory).value i.graph.toGraph (some id) =
        some ((Stores.run i.graph.toGraph (i.graph.operators.zip meanings) 0
          (a.stores s.memory)).tensors id) := by
    intro t ht hd hout
    rw [Stores.value_of_data _ ht hd]
    refine congrArg some (h.tracks.tensors id t (Graph.stored_of_operand hop hoperand ht hd) ?_)
    intro hkind
    rw [hone]
    exact Graph.live_of_written hop (hout hkind)
  rcases List.mem_append.mp hid with hvar | hout
  · obtain ⟨t, ht, hkind⟩ := of_decide_eq_true (List.mem_filter.mp hvar).2
    refine hread t ht (Tensor.data_of_kind_var hkind).1 fun hactivation => ?_
    rw [hkind] at hactivation
    cases hactivation
  · obtain ⟨⟨t, ht, hkind⟩, -⟩ := i.graph.rules.write 0 op hop id hout
    exact hread t ht (Tensor.data_of_kind_activation hkind).1 fun _ => hout

/-- A target that the reference fills with a word shows it after the run. -/
theorem RanOnce.shows (h : i.RanOnce tables a meanings s s') (hl : i.Lodged tables a s.memory)
    (hone : i.graph.operators = [op]) (hid : id ∈ op.targets i.graph.toGraph)
    (htyped : i.graph.toGraph.Typed id d) {w : Nat} (hw : w < 256 ^ d.size)
    (hfilled : (Stores.run i.graph.toGraph (i.graph.operators.zip meanings) 0
      (a.stores s.memory)).tensors id = Bytes.filled (i.graph.toGraph.sizeOf id) d.size w) :
    i.Shows s' id d w := by
  have hfree := h.wrote.hold_eq.trans h.exec_eq.1
  have hafter := hl.wrote h.wrote rfl hl.tables_eq
  refine hafter.shows hfree (Graph.operator_of_single hone)
    (Operator.mem_operandIds_of_mem_targets hid) htyped hw ?_
  rw [h.value_eq hone hid, hfilled]

/-- The kernel of the only operator succeeded, on the operands that it is due: its inputs have the
values that the arena held. -/
theorem RanOnce.kernel_ran (h : i.RanOnce tables a meanings s s') (hl : i.Lodged tables a s.memory)
    (hb : a.Bindable i.graph.toGraph s.memory) (hone : i.graph.operators = [op])
    {kernel : Kernel σ} (hkernels : i.kernels = [kernel]) :
    ∃ o grant after outside', o.Fits i.graph.toGraph op grant ∧
      o.inputs.map Input.bytes = op.inputs.map ((a.stores s.memory).value i.graph.toGraph) ∧
      kernel.invoke.run (o, s.outside) = (.ok (), after, outside') := by
  have hop := Graph.operator_of_single hone
  obtain ⟨-, hexec⟩ := h.exec_eq
  have hpairs : i.graph.operators.zip i.kernels = [(op, kernel)] := by
    rw [hone, hkernels]
    rfl
  rw [hpairs] at hexec
  -- After the only operator the loop ends.
  have hruns : (Pass.runAll i.graph.toGraph i.activeProfiler i.context tables [(op, kernel)] 0).Runs s
      (fun _ s' => ∃ o, s.bound i.graph.toGraph op tables 0 i.context = .ok o ∧
        Site.Ran kernel o (.ok ()) s s') fun _ _ => True :=
    ((Pass.runOperator_runs s i.graph.toGraph i.activeProfiler i.context tables 0 op kernel).mono
      (fun _ _ h => h) fun _ _ _ => trivial).bind fun _ _ hran => .of_pure hran
  obtain ⟨o, hbound, hran⟩ := hruns.of_ok hexec
  obtain ⟨grant, hg⟩ := hl.fits.exists_grant hop
  rw [Allotment.bound_eq i.graph.rules hl.fits hl.settled hb hop hg i.context] at hbound
  cases hbound
  exact ⟨_, grant, _, _, Allotment.operands_fit i.graph.rules hl.fits hb hop hg i.context,
    (a.tracks_stores _ _ _).input_bytes i.graph.rules hl.fits
      (Allotment.knows_live i.graph.rules hl.fits) hop _ _, Prod.ext hran.outcome_eq rfl⟩

/-! ## What the kernels report -/

/-- One run of the kernel with a state: the median of the input, and the count of the runs. -/
theorem RanOnce.reports {x y z : Nat} {free : σ → σ}
    (h : i.Reaches tables a [SampleKernel.reporting i.graph.toGraph x y z] written runs s.memory)
    (hran : i.RanOnce tables a [SampleKernel.reporting i.graph.toGraph x y z] s s')
    (hb : a.Bindable i.graph.toGraph s.memory) (hone : i.graph.operators = [op])
    (hkernels : i.kernels = [SampleKernel.simpleStateful free]) (hinputs : op.inputs = [some x])
    (houtputs : op.outputs = [some y, some z]) (hx : i.graph.toGraph.Typed x .u8)
    (hpos : 1 ≤ i.graph.toGraph.elementsOf x) (hy : i.graph.toGraph.Typed y .u8)
    (hz : i.graph.toGraph.Typed z .i32) :
    ∃ values m, i.Reads s x .u8 values ∧ values.length = i.graph.toGraph.elementsOf x ∧
      IsMedian m values ∧ i.Shows s' y .u8 m ∧
      i.Shows s' z .i32 ((runs + 1) % DType.i32.modulus) := by
  have htarget : ∀ id ∈ [y, z], id ∈ op.targets i.graph.toGraph := by
    rw [SampleKernel.simpleStateful_targets hinputs houtputs]
    exact fun id hid => List.mem_append_right _ hid
  have hread : x ∈ op.operandIds := by
    rw [Operator.operandIds, Operator.inputIds, hinputs]
    exact List.mem_cons_self
  -- The kernel has read all bytes of its input.
  obtain ⟨o, grant, after, outside', hfits, hvalues, hkernel⟩ :=
    hran.kernel_ran h.toLodged hb hone hkernels
  have hlen := SampleKernel.simpleStateful_sized hinputs hfits hkernel
  rw [hvalues, hinputs, List.map_singleton, Graph.sizeOf_typed hx, show DType.u8.size = 1 from rfl,
    Nat.mul_one] at hlen
  obtain ⟨hy', hz'⟩ :=
    SampleKernel.outputs_of_reached i.graph.rules hone hinputs houtputs h.reached
  refine ⟨_, _, h.toLodged.reads_bytes hran.exec_eq.1 (Graph.operator_of_single hone) hread hx, ?_,
    SampleKernel.isMedian_median (hlen ▸ hpos), ?_, ?_⟩
  · rw [Bytes.length_words, hlen]
    exact Nat.div_one _
  · exact hran.shows h.toLodged hone (htarget y (by simp)) hy (SampleKernel.median_lt (hlen ▸ hpos)) hy'
  · exact hran.shows h.toLodged hone (htarget z (by simp)) hz (DType.i32_mod_lt _) hz'

/-- One run of the counting kernel over a variable that only it writes: the count of the runs, in the
variable and in the output. -/
theorem RanOnce.counts {x y : Nat} {free : σ → σ}
    (h : i.Reaches tables a [SampleKernel.counting i.graph.toGraph x y] written runs s.memory)
    (hran : i.RanOnce tables a [SampleKernel.counting i.graph.toGraph x y] s s')
    (hb : a.Bindable i.graph.toGraph s.memory) (hone : i.graph.operators = [op])
    (hkernels : i.kernels = [SampleKernel.accumulate free]) (hinputs : op.inputs = [some x])
    (houtputs : op.outputs = [some y]) (hvar : i.graph.toGraph.IsVar x)
    (hx : i.graph.toGraph.Typed x .i32) (hunwritten : ¬ written x) :
    i.Shows s' x .i32 ((runs + 1) % DType.i32.modulus) ∧
      i.Shows s' y .i32 ((runs + 1) % DType.i32.modulus) := by
  have htargets := SampleKernel.accumulate_targets hvar hinputs houtputs
  have htarget : ∀ id ∈ [x, y], id ∈ op.targets i.graph.toGraph := fun id hid => htargets ▸ hid
  -- The kernel found an output of the type and the size of the variable.
  obtain ⟨o, grant, after, outside', hfits, -, hkernel⟩ :=
    hran.kernel_ran h.toLodged hb hone hkernels
  obtain ⟨t, u, ht, hu, hdtype, hsize, -⟩ :=
    SampleKernel.accumulate_leaves hvar hinputs houtputs hfits hkernel
  have hy : i.graph.toGraph.Typed y .i32 := by
    rw [Graph.Typed, hu, Option.map_some, hdtype]
  rw [← Graph.sizeOf_eq ht, ← Graph.sizeOf_eq hu] at hsize
  have hdvd : DType.i32.size ∣ i.graph.toGraph.sizeOf x := by
    rw [Graph.sizeOf_typed hx]
    exact Nat.dvd_mul_left ..
  have hheld := SampleKernel.variable_of_reached i.graph.rules hone hinputs houtputs hvar hdvd
    hunwritten h.reached
  obtain ⟨hx', hy'⟩ := SampleKernel.tensors_counting i.graph.rules hone hinputs houtputs hvar
    (a.stores s.memory)
  rw [hheld, SampleKernel.countedUp_filled hdvd (DType.i32_mod_lt runs) rfl, Nat.mod_add_mod] at hx'
  rw [hheld, SampleKernel.countedUp_filled hdvd (DType.i32_mod_lt runs) hsize, Nat.mod_add_mod,
    ← hsize] at hy'
  exact ⟨hran.shows h.toLodged hone (htarget x (by simp)) hx (DType.i32_mod_lt _) hx',
    hran.shows h.toLodged hone (htarget y (by simp)) hy (DType.i32_mod_lt _) hy'⟩

end Interpreter

end TensorArena
