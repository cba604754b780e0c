import TensorArena.Proofs.Reference.Tracks

/-!
# Feeding and running keep the relation

Writing graph inputs makes their values known: all inputs are alive at the first operator, so they do
not lie in each other's way. Running all operators takes the relation from the inputs to whatever is
live in the end.
-/

namespace TensorArena

variable {σ π : Type}

namespace Stores

theorem run_append (g : Graph) (ops rest : List (Operator × Meaning)) (k : Nat) (v : Stores) :
    run g (ops ++ rest) k v = run g rest (k + ops.length) (run g ops k v) := by
  induction ops generalizing k v with
  | nil => rfl
  | cons p ops ih =>
    rw [List.cons_append, run, run, ih, List.length_cons,
      show k + 1 + ops.length = k + (ops.length + 1) by omega]

/-- The stores after one operator more. -/
theorem run_take_succ (g : Graph) {ops : List (Operator × Meaning)} {j : Nat} {op : Operator}
    {f : Meaning} (h : ops[j]? = some (op, f)) (v : Stores) :
    run g (ops.take (j + 1)) 0 v = (run g (ops.take j) 0 v).step g op j f := by
  have hlen : (ops.take j).length = j :=
    List.length_take_of_le (Nat.le_of_lt (List.getElem?_eq_some_iff.mp h).1)
  rw [List.take_add_one, h, run_append, hlen, Nat.zero_add]
  rfl

end Stores

namespace Stores

theorem feed_cons_of_some (v : Stores) {g : Graph} {index id : Nat} {bytes : Bytes}
    {rest : List (Nat × Bytes)} (h : g.inputs[index]? = some id) :
    v.feed g ((index, bytes) :: rest) = (v.put id bytes).feed g rest := by
  simp only [feed, List.filterMap_cons, h, Option.map_some]
  rfl

theorem feed_cons_of_none (v : Stores) {g : Graph} {index : Nat} {bytes : Bytes}
    {rest : List (Nat × Bytes)} (h : g.inputs[index]? = none) :
    v.feed g ((index, bytes) :: rest) = v.feed g rest := by
  simp only [feed, List.filterMap_cons, h, Option.map_none]

end Stores

/-- The kernels of a graph, each described by a function. -/
structure Graph.Computed (g : Graph) (kernels : List (Kernel σ)) (meanings : List Meaning) : Prop where
  kernels_length : kernels.length = g.operators.length
  meanings_length : meanings.length = g.operators.length
  computes : ∀ (k : Nat) (op : Operator) (kernel : Kernel σ) (f : Meaning),
    g.operators[k]? = some op → kernels[k]? = some kernel → meanings[k]? = some f →
      kernel.Computes g op f

theorem Graph.operator_of_single {g : Graph} {op : Operator} (hone : g.operators = [op]) :
    g.operators[0]? = some op := by
  rw [hone]
  rfl

theorem Graph.computed_single {g : Graph} {kernels : List (Kernel σ)} {op : Operator}
    {kernel : Kernel σ} {f : Meaning} (hone : g.operators = [op]) (hkernels : kernels = [kernel])
    (hf : kernel.Computes g op f) : g.Computed kernels [f] where
  kernels_length := by
    rw [hone, hkernels]
    rfl
  meanings_length := by
    rw [hone]
    rfl
  computes k op' kernel' f' hop hkernel hmeaning := by
    rw [hone] at hop
    rw [hkernels] at hkernel
    cases k with
    | zero =>
      cases hop
      cases hkernel
      cases hmeaning
      exact hf
    | succ k => cases hop

namespace Allotment

variable {a : Allotment} {g : Graph} {tables : Tables} {kernels : List (Kernel σ)}
  {meanings : List Meaning} {s : Site σ π}

/-- Every grant of the allotment is one that preparing the kernel gave. -/
def Prepared (a : Allotment) (g : Graph) (kernels : List (Kernel σ)) : Prop :=
  ∀ (k : Nat) (op : Operator) (kernel : Kernel σ) (grant : Grant), g.operators[k]? = some op →
    kernels[k]? = some kernel → a.grants[k]? = some grant →
      ∃ data, kernel.Prepares (.of g op) grant data

theorem live_zero {id : Nat} (h : g.Live 0 id) : id ∈ g.inputs := by
  rcases h.hasValue with hin | hw
  · exact hin
  · cases hw

/-- Running all operators keeps the relation, as long as none fails. -/
theorem runAll_tracks (hc : g.Checked) (h : a.Fits g tables) (hs : a.Settled tables s.memory)
    (hb : a.Bindable g s.memory) (hcomputed : g.Computed kernels meanings)
    (hprepared : a.Prepared g kernels) {known : Nat → Nat → Prop} (hknows : a.Knows g known)
    {v : Stores} (htracks : a.Tracks g (known 0) v s.memory) (profiler : Option (Profiler π))
    (context : Option Int) :
    (Pass.runAll g profiler context tables (g.operators.zip kernels) 0).Runs s
      (fun _ s' => a.Tracks g (known g.operators.length)
        (Stores.run g (g.operators.zip meanings) 0 v) s'.memory)
      (fun _ _ => True) := by
  refine (Pass.runAll_runs
    (fun j s' => s.Wrote a.Reach s' ∧
      a.Tracks g (known j) (Stores.run g ((g.operators.zip meanings).take j) 0 v) s'.memory)
    ?step ⟨.refl s, htracks⟩).mono ?final fun _ _ h => h
  case final =>
    rintro _ s' ⟨-, hfinal⟩
    rw [Nat.zero_add, List.length_zip, hcomputed.kernels_length, Nat.min_self,
      List.take_of_length_le] at hfinal
    · exact hfinal
    · refine Nat.le_of_eq ?_
      rw [List.length_zip, hcomputed.meanings_length, Nat.min_self]
  case step =>
    rintro j op kernel s' hj ⟨hw, hsofar⟩
    rw [Nat.zero_add] at hsofar ⊢
    obtain ⟨hop, hkernel⟩ := List.getElem?_zip_eq_some.mp hj
    have hlt := (List.getElem?_eq_some_iff.mp hop).1
    rw [← hcomputed.meanings_length] at hlt
    have hf := List.getElem?_eq_getElem hlt
    -- Earlier operators left the tables settled, so this one is bound as the allotment says.
    obtain ⟨grant, hg⟩ := h.exists_grant hop
    obtain ⟨data, hprepares⟩ := hprepared j op kernel grant hop hkernel hg
    have hsettled : a.Settled tables s'.memory := hs.wrote h rfl hw
    have hb' := hb.congr hw.size_eq
    refine (Pass.runOperator_runs s' g profiler context tables j op kernel).mono ?_
      fun _ _ _ => trivial
    rintro - s'' ⟨o, hbound, hran⟩
    refine ⟨hw.trans (wrote_of_ran hc h hsettled hop hbound hran), ?_⟩
    rw [bound_eq hc h hsettled hb' hop hg context] at hbound
    cases hbound
    rw [Stores.run_take_succ g (List.getElem?_zip_eq_some.mpr ⟨hop, hf⟩)]
    have hmemory := hran.memory_eq
    rw [hmemory]
    exact hsofar.step hc h hb' hknows hop hg (hcomputed.computes j op kernel _ hop hkernel hf) hprepares
      (Prod.ext hran.outcome_eq rfl)

end Allotment

/-! ## Feeding -/

namespace Interpreter

variable {i : Interpreter σ π} {tables : Tables} {a : Allotment} {s : Site σ π} {g : Graph}

/-- A graph input has bytes in the arena. -/
theorem stored_of_input (hc : g.Checked) {index id : Nat} (hin : g.inputs[index]? = some id) :
    ∃ t, g.Stored id t ∧ t.kind = .activation := by
  have hmem := List.mem_of_getElem? hin
  obtain ⟨t, ht, hkind⟩ := hc.input id hmem
  refine ⟨t, ⟨ht, .inr ?_⟩, hkind⟩
  exact Graph.exists_planned ht hkind (Graph.mem_touches.mpr (.inl ⟨hmem, rfl⟩))

theorem feedInput_of_none (i : Interpreter σ π) (s : Site σ π) {index : Nat}
    (h : i.graph.inputs[index]? = none) (bytes : Bytes) : i.feedInput s (index, bytes) = s := by
  unfold feedInput writableInput lookup
  rw [h]
  rfl

theorem Lodged.feedInput_eq (h : i.Lodged tables a s.memory) (hstate : i.state = .allocated tables)
    (hhold : s.hold = .free) {index id : Nat} (hin : i.graph.inputs[index]? = some id)
    (bytes : Bytes) :
    i.feedInput s (index, bytes) =
      s.mapMemory fun m => m.write (a.rangeOf id).offset bytes := by
  obtain ⟨t, hs, -⟩ := stored_of_input i.graph.rules hin
  obtain ⟨span, hspan, -⟩ := h.fits.stored hs
  have hhandle : i.writableInput s index =
      .ok ⟨t, ⟨span.range.offset, s.memory.piece span.range⟩⟩ := by
    unfold writableInput lookup
    rw [hin]
    exact h.writableTensor_eq hstate hhold hs hspan
  unfold feedInput
  rw [hhandle, Allotment.rangeOf_eq hspan]
  rfl

/-- Writing a graph input makes its value known and changes no other one. -/
theorem Lodged.feedInput_tracks (h : i.Lodged tables a s.memory)
    (hstate : i.state = .allocated tables) (hhold : s.hold = .free) {index id : Nat}
    (hin : i.graph.inputs[index]? = some id) {bytes : Bytes}
    (hlen : bytes.length = i.graph.toGraph.sizeOf id) :
    s.Wrote a.Reach (i.feedInput s (index, bytes)) ∧
      ∀ known v, (∀ x, known x → x ∈ i.graph.inputs) →
        a.Tracks i.graph.toGraph known v s.memory →
        a.Tracks i.graph.toGraph (fun x => known x ∨ x = id) (v.put id bytes)
          (i.feedInput s (index, bytes)).memory := by
  have hc := i.graph.rules
  have hmem := List.mem_of_getElem? hin
  obtain ⟨t, hs, hkind⟩ := stored_of_input hc hin
  obtain ⟨span, hspan, -, hspanlen, -, hlies, hstop⟩ := h.fits.stored hs
  have hsize : bytes.length = span.range.length := by
    rw [hlen, hspanlen, Graph.sizeOf_eq hs.1]
  rw [h.feedInput_eq hstate hhold hin, Allotment.rangeOf_eq hspan]
  have hcovers : ∀ x, (ByteRange.mk span.range.offset bytes.length).Covers x → span.range.Covers x := by
    rw [hsize]
    exact fun _ hx => hx
  refine ⟨?_, fun known v hknown htracks => ⟨fun x t' hs' hx => ?_, fun k grant hg => ?_⟩⟩
  · refine .of_store rfl rfl rfl (Memory.size_write ..) fun x hx => ?_
    exact Memory.get_write_of_not_covers _ fun hc =>
      hx (h.fits.reach_stored hs hspan (hcovers x hc))
  · rw [Site.memory_mapMemory]
    by_cases heq : x = id
    · subst heq
      rw [Allotment.rangeOf_eq hspan, Stores.tensors_put_self]
      exact Memory.piece_write_self _ hsize (Nat.le_trans hstop h.start_le)
    · -- Both are alive when the first operator starts.
      have hxin : t'.kind = .activation → x ∈ i.graph.inputs := fun hk =>
        hknown x ((hx hk).resolve_right heq)
      obtain ⟨span', hspan', -⟩ := h.fits.stored hs'
      have hapart : span.range.Apart span'.range := by
        refine h.fits.stored_apart hs hs' (Ne.symm heq) (fun l l' hl hl' => ?_) hspan hspan'
        have hk' := hl'.kind_eq hs'.1
        exact Lifetime.overlaps_of_aliveAt
          (hl.aliveAt (Graph.mem_touches.mpr (.inl ⟨hmem, rfl⟩)))
          (hl'.aliveAt (Graph.mem_touches.mpr (.inl ⟨hxin hk', rfl⟩)))
      rw [Allotment.rangeOf_eq hspan', (Memory.agreeOn_write _ hcovers hapart).piece_eq,
        Stores.tensors_put_of_ne v heq, ← Allotment.rangeOf_eq hspan']
      exact htracks.tensors x t' hs' fun hk => (hx hk).resolve_right heq
  · have hapart := ((h.fits.userRange hg).2.1.apart hlies h.fits.falling.tensors).symm
    rw [Site.memory_mapMemory, (Memory.agreeOn_write _ hcovers hapart).piece_eq]
    exact htracks.persistent k grant hg

/-- Writing graph inputs in order. -/
theorem Lodged.feed_tracks (h : i.Lodged tables a s.memory) (hstate : i.state = .allocated tables)
    (hhold : s.hold = .free) {writes : List (Nat × Bytes)}
    (hsizes : ∀ index bytes id, (index, bytes) ∈ writes → i.graph.inputs[index]? = some id →
      bytes.length = i.graph.toGraph.sizeOf id) :
    s.Wrote a.Reach (writes.foldl i.feedInput s) ∧
      ∀ known v, (∀ x, known x → x ∈ i.graph.inputs) →
        a.Tracks i.graph.toGraph known v s.memory →
        a.Tracks i.graph.toGraph (fun x => known x ∨ ∃ index bytes, (index, bytes) ∈ writes ∧
          i.graph.inputs[index]? = some x) (v.feed i.graph.toGraph writes)
          (writes.foldl i.feedInput s).memory := by
  -- Each write keeps the interpreter lodged, so the rest is fed from where it left the site.
  induction writes generalizing s with
  | nil => exact ⟨.refl s, fun known v _ htracks => htracks.mono fun x hx => hx.resolve_right nofun⟩
  | cons write rest ih =>
    obtain ⟨index, bytes⟩ := write
    have hrest : ∀ index bytes id, (index, bytes) ∈ rest → i.graph.inputs[index]? = some id →
        bytes.length = i.graph.toGraph.sizeOf id :=
      fun index bytes id hmem => hsizes index bytes id (List.mem_cons_of_mem _ hmem)
    rw [List.foldl_cons]
    cases hin : i.graph.inputs[index]? with
    | none =>
      rw [feedInput_of_none i s hin]
      obtain ⟨hw, hstep⟩ := ih h hhold hrest
      refine ⟨hw, fun known v hknown htracks => ?_⟩
      rw [Stores.feed_cons_of_none v hin]
      refine (hstep known v hknown htracks).mono fun x hx => hx.imp_right ?_
      rintro ⟨index', bytes', hmem, hin'⟩
      rcases List.mem_cons.mp hmem with heq | hmem
      · cases heq
        rw [hin] at hin'
        cases hin'
      · exact ⟨index', bytes', hmem, hin'⟩
    | some id =>
      obtain ⟨hw₁, hstep₁⟩ := h.feedInput_tracks hstate hhold hin
        (hsizes index bytes id List.mem_cons_self hin)
      obtain ⟨hw₂, hstep₂⟩ := ih (h.wrote hw₁ rfl h.tables_eq) (hw₁.hold_eq.trans hhold) hrest
      refine ⟨hw₁.trans hw₂, fun known v hknown htracks => ?_⟩
      rw [Stores.feed_cons_of_some v hin]
      have hmid := hstep₂ _ _ (fun x hx => ?_) (hstep₁ known v hknown htracks)
      · refine hmid.mono fun x hx => ?_
        rcases hx with hx | ⟨index', bytes', hmem, hin'⟩
        · exact .inl (.inl hx)
        · rcases List.mem_cons.mp hmem with heq | hmem
          · cases heq
            cases hin.symm.trans hin'
            exact .inl (.inr rfl)
          · exact .inr ⟨index', bytes', hmem, hin'⟩
      · rcases hx with hx | rfl
        · exact hknown x hx
        · exact List.mem_of_getElem? hin

end Interpreter

end TensorArena
