import TensorArena.Proofs.Plan.Order
import TensorArena.Proofs.Reference.Stateless

/-!
# Planning keeps the meaning of a graph

An interpreter that shares bytes between activations computes what the reference computes. Its
allocation pass establishes the relation between its arena and the stores at the start; each round
keeps it or fails the interpreter for good; and after a round that succeeds all graph outputs are
live.
-/

namespace TensorArena

variable {σ π : Type}

namespace Pass

/-- What was recorded of a kernel is what preparing it gave. -/
theorem prepared_prepares {g : Graph} {pairs : List (Operator × Kernel σ)} {s : Site σ π}
    (hs : s.Sound) {k : Nat} {op : Operator} {kernel : Kernel σ} {grant : Grant} {data : Bytes}
    (hpair : pairs[k]? = some (op, kernel))
    (hp : (prepared g pairs s)[k]? = some (grant, data)) :
    kernel.Prepares (.of g op) grant data := by
  induction pairs generalizing s k with
  | nil => cases hpair
  | cons pair rest ih =>
    obtain ⟨op', kernel'⟩ := pair
    unfold prepared at hp
    split at hp
    · rename_i grant' s' hrun
      cases k with
      | zero =>
        cases hpair
        cases hp
        exact ⟨π, s, s', hs, hrun, rfl⟩
      | succ k =>
        refine ih (s := s') ?_ hpair hp
        have hsince := ((kernel'.prepare (.of g op')).run_since (.refl hs)
          (g := {}) ⟨Nat.zero_le _, nofun⟩).1
        rw [hrun] at hsince
        exact hsince.sound
    · cases hp

theorem beforeKernels_sound (g : Graph) {s : Site σ π} (hs : s.Sound) :
    (beforeKernels g s).Sound :=
  (Site.request_since (Site.Since.rewind hs).sound ..).sound

/-- A finished pass establishes the relation. -/
theorem Committed.tracks {g : Graph} {kernels : List (Kernel σ)} {meanings : List Meaning}
    {strategy : Strategy} {s s' : Site σ π} {tables : Tables} {a : Allotment}
    (h : Committed g kernels strategy s s' tables a)
    (hs : s.Sound) (hcomputed : g.Computed kernels meanings) :
    a.Prepared g kernels ∧
      a.Tracks g (fun _ => False) (Stores.start g meanings) s'.memory := by
  -- What a kernel filled its persistent data with is what preparing it gives anywhere.
  have hprepares : ∀ (k : Nat) (op : Operator) (kernel : Kernel σ) (grant : Grant),
      g.operators[k]? = some op → kernels[k]? = some kernel → a.grants[k]? = some grant →
        ∃ data, kernel.Prepares (.of g op) grant data ∧
          (grant.userData.map s'.memory.piece).getD [] = data := by
    intro k op kernel grant hop hkernel hg
    rw [h.grants_eq, List.getElem?_map, Option.map_eq_some_iff] at hg
    obtain ⟨⟨_, data⟩, hp, rfl⟩ := hg
    exact ⟨data, prepared_prepares (beforeKernels_sound g hs)
      (List.getElem?_zip_eq_some.mpr ⟨hop, hkernel⟩) hp, h.persistent _ (List.mem_of_getElem? hp)⟩
  refine ⟨fun k op kernel grant hop hkernel hg => ?_, fun id t hstored hknown => ?_,
    fun k grant hg => ?_⟩
  · obtain ⟨data, hdata, -⟩ := hprepares k op kernel grant hop hkernel hg
    exact ⟨data, hdata⟩
  · obtain ⟨ht, hkind | ⟨l, hl⟩⟩ := hstored
    · -- Variables start at zero on both sides.
      obtain ⟨span, hspan, hzip, -⟩ := h.fits.span_of_var ht hkind
      rw [Allotment.rangeOf_eq hspan]
      refine (h.zeroed _ (List.mem_of_getElem? hzip) (Tensor.data_of_kind_var hkind).2).trans ?_
      rw [← Graph.sizeOf_eq ht]
      rfl
    · exact (hknown (hl.kind_eq ht)).elim
  · have hlt := (List.getElem?_eq_some_iff.mp hg).1
    rw [h.fits.grants_length] at hlt
    have hop := List.getElem?_eq_getElem hlt
    have hlt' := hlt
    rw [← hcomputed.kernels_length] at hlt'
    have hkernel := List.getElem?_eq_getElem hlt'
    have hlt'' := hlt
    rw [← hcomputed.meanings_length] at hlt''
    have hf := List.getElem?_eq_getElem hlt''
    obtain ⟨data, hdata, hpiece⟩ := hprepares k _ _ grant hop hkernel hg
    rw [h.fits.userRange_rowOf hg]
    show _ = (meanings[k]?.map Meaning.initial).getD []
    rw [hf, Option.map_some, Option.getD_some,
      ← (hcomputed.computes k _ _ _ hop hkernel hf).initial grant data hdata, ← hpiece]
    cases grant.userData with
    | none => rfl
    | some r => rfl

end Pass

/-! ## Sizes -/

namespace Stores

/-- Every tensor has as many bytes as the graph says. -/
def Sized (v : Stores) (g : Graph) : Prop :=
  ∀ id, (v.tensors id).length = g.sizeOf id

theorem start_sized (g : Graph) (meanings : List Meaning) : (start g meanings).Sized g :=
  fun _ => List.length_replicate

variable {v : Stores} {g : Graph}

theorem Sized.put (h : v.Sized g) {id : Nat} {bytes : Bytes} (hlen : bytes.length = g.sizeOf id) :
    (v.put id bytes).Sized g := by
  intro x
  by_cases heq : x = id
  · subst heq
    rw [tensors_put_self, hlen]
  · rw [tensors_put_of_ne v heq, h x]

theorem Sized.putAll (h : v.Sized g) {pairs : List (Nat × Bytes)}
    (hlen : ∀ id bytes, (id, bytes) ∈ pairs → bytes.length = g.sizeOf id) :
    (v.putAll pairs).Sized g := by
  induction pairs generalizing v with
  | nil => exact h
  | cons p rest ih =>
    exact ih (h.put (hlen p.1 p.2 List.mem_cons_self))
      fun id bytes hmem => hlen id bytes (List.mem_cons_of_mem _ hmem)

theorem Sized.feed (h : v.Sized g) {writes : List (Nat × Bytes)} (hfull : g.Full writes) :
    (v.feed g writes).Sized g := by
  refine h.putAll fun id bytes hmem => ?_
  obtain ⟨⟨index, _⟩, hwrite, hpair⟩ := List.mem_filterMap.mp hmem
  obtain ⟨_, hin, heq⟩ := Option.map_eq_some_iff.mp hpair
  cases heq
  exact hfull.sizes index bytes id hwrite hin

theorem Sized.step (h : v.Sized g) {kernel : Kernel σ} {op : Operator} {f : Meaning}
    (hf : kernel.Computes g op f) (k : Nat) : (v.step g op k f).Sized g :=
  h.putAll fun _ _ hmem => Allotment.length_of_mem_zip (hf.sizes _ _).1 hmem

theorem Sized.run (h : v.Sized g) {ops : List (Operator × Meaning)}
    (hops : ∀ p ∈ ops, ∃ kernel : Kernel σ, kernel.Computes g p.1 p.2) (k : Nat) :
    (run g ops k v).Sized g := by
  induction ops generalizing v k with
  | nil => exact h
  | cons p rest ih =>
    obtain ⟨⟨_, hf⟩, hrest⟩ := List.forall_mem_cons.mp hops
    exact ih (h.step hf k) hrest (k + 1)

theorem Sized.runAll (h : v.Sized g) {kernels : List (Kernel σ)} {meanings : List Meaning}
    (hcomputed : g.Computed kernels meanings) :
    (Stores.run g (g.operators.zip meanings) 0 v).Sized g := by
  refine h.run (σ := σ) (fun p hp => ?_) 0
  obtain ⟨k, hk⟩ := List.mem_iff_getElem?.mp hp
  obtain ⟨hop, hf⟩ := List.getElem?_zip_eq_some.mp hk
  have hlt := (List.getElem?_eq_some_iff.mp hop).1
  rw [← hcomputed.kernels_length] at hlt
  exact ⟨_, hcomputed.computes k _ _ _ hop (List.getElem?_eq_getElem hlt) hf⟩

end Stores

namespace Interpreter

variable {i : Interpreter σ π} {tables : Tables} {a : Allotment} {s : Site σ π}
  {meanings : List Meaning}

/-- An allocated interpreter that is free to run. -/
structure Serves (i : Interpreter σ π) (tables : Tables) (a : Allotment) (s : Site σ π) : Prop where
  state : i.state = .allocated tables
  hold : s.hold = .free
  lodged : i.Lodged tables a s.memory

theorem Serves.wrote {s' : Site σ π} (h : i.Serves tables a s) (hw : s.Wrote a.Reach s') :
    i.Serves tables a s' :=
  ⟨h.state, hw.hold_eq.trans h.hold, h.lodged.wrote hw rfl h.lodged.tables_eq⟩

theorem Serves.invoke_eq (h : i.Serves tables a s) : i.invoke s = i.runOnce tables s := by
  unfold Interpreter.invoke
  rw [h.state]

/-- One run: the interpreter serves on, and has run all its operators unless binding failed; or it has
failed. -/
theorem Serves.runOnce (h : i.Serves tables a s) :
    (∃ outcome s', (Pass.runAll i.graph.toGraph i.activeProfiler i.context tables
          (i.graph.operators.zip i.kernels) 0).run.run s = (outcome, s') ∧
        i.runOnce tables s = (outcome, i, s') ∧
        (a.Bindable i.graph.toGraph s.memory → outcome = .ok ())) ∨
      (i.runOnce tables s).1 ≠ .ok () ∧
        (i.runOnce tables s).2.1.state = .failed (some tables) := by
  have hruns := Allotment.runAll_wrote i.graph.rules h.lodged.fits h.lodged.settled
    i.activeProfiler i.context (i.graph.operators.zip i.kernels)
    fun _ _ _ hj => (List.getElem?_zip_eq_some.mp hj).1
  unfold Interpreter.runOnce
  rw [if_neg (not_not_intro h.hold)]
  split
  · exact .inr ⟨nofun, rfl⟩
  · rename_i outcome s' hkernel hexec
    refine .inl ⟨outcome, s', hexec, rfl, fun hb => ?_⟩
    cases outcome with
    | ok _ => rfl
    | error e =>
      obtain ⟨index, name, cause, rfl⟩ := (hruns.of_error hexec).2 hb
      exact absurd rfl (hkernel index name cause)

/-- The interpreter serves, and its arena holds what the reference holds. Binding may need more than
there is, and then nothing is said of the arena; but every tensor of the reference has its size. -/
structure Follows (i : Interpreter σ π) (tables : Tables) (a : Allotment) (known : Nat → Prop)
    (v : Stores) (s : Site σ π) : Prop extends i.Serves tables a s where
  sized : v.Sized i.graph.toGraph
  tracks : a.Bindable i.graph.toGraph s.memory → a.Tracks i.graph.toGraph known v s.memory

theorem Follows.mono {known known' : Nat → Prop} {v : Stores} (h : i.Follows tables a known v s)
    (hk : ∀ id, known' id → known id) : i.Follows tables a known' v s :=
  { h with tracks := fun hb => (h.tracks hb).mono hk }

/-- Writing every graph input makes all of them known. -/
theorem Follows.feed {v : Stores} (h : i.Follows tables a (fun _ => False) v s)
    {writes : List (Nat × Bytes)} (hfull : i.graph.toGraph.Full writes) :
    i.Follows tables a (fun id => id ∈ i.graph.inputs) (v.feed i.graph.toGraph writes)
      (writes.foldl i.feedInput s) := by
  obtain ⟨hfed, hfeed⟩ := h.lodged.feed_tracks h.state h.hold hfull.sizes
  refine ⟨h.toServes.wrote hfed, h.sized.feed hfull, fun hb => ?_⟩
  refine (hfeed _ v nofun (h.tracks (hb.congr hfed.size_eq.symm))).mono fun id hid => .inr ?_
  obtain ⟨index, hindex⟩ := List.mem_iff_getElem?.mp hid
  obtain ⟨bytes, hmem⟩ := hfull.all index (List.getElem?_eq_some_iff.mp hindex).1
  exact ⟨index, bytes, hmem, hindex⟩

/-- One run: the interpreter follows the reference on, or it has failed. -/
theorem Follows.invoke {known : Nat → Nat → Prop} {v : Stores}
    (h : i.Follows tables a (known 0) v s) (hknows : a.Knows i.graph.toGraph known)
    (hcomputed : i.graph.toGraph.Computed i.kernels meanings)
    (hprepared : a.Prepared i.graph.toGraph i.kernels) :
    (i.invoke s).2.1 = i ∧
        i.Follows tables a (known i.graph.operators.length)
          (Stores.run i.graph.toGraph (i.graph.operators.zip meanings) 0 v) (i.invoke s).2.2 ∨
      (i.invoke s).1 ≠ .ok () ∧ (i.invoke s).2.1.state = .failed (some tables) := by
  have hwrote := (runOnce_wrote h.lodged).1
  rw [h.invoke_eq]
  refine h.runOnce.imp_left ?_
  rintro ⟨outcome, s', hexec, hrun, hok⟩
  rw [hrun] at hwrote ⊢
  refine ⟨rfl, h.toServes.wrote hwrote, h.sized.runAll hcomputed, fun hb => ?_⟩
  have hb₀ := hb.congr hwrote.size_eq.symm
  rw [hok hb₀] at hexec
  exact (Allotment.runAll_tracks i.graph.rules h.lodged.fits h.lodged.settled hb₀ hcomputed
    hprepared hknows (h.tracks hb₀) i.activeProfiler i.context).of_ok hexec

/-- One round: the interpreter follows the reference on, with all outputs live, or it has failed. -/
theorem Follows.round {v : Stores} (h : i.Follows tables a (fun _ => False) v s)
    (hcomputed : i.graph.toGraph.Computed i.kernels meanings)
    (hprepared : a.Prepared i.graph.toGraph i.kernels) {writes : List (Nat × Bytes)}
    (hfull : i.graph.toGraph.Full writes) :
    (i.round s writes).2.1 = i ∧
        i.Follows tables a (i.graph.toGraph.Live i.graph.operators.length)
          (Stores.round i.graph.toGraph meanings v writes) (i.round s writes).2.2 ∨
      (i.round s writes).1 ≠ .ok () ∧
        (i.round s writes).2.1.state = .failed (some tables) :=
  ((h.feed hfull).mono fun _ => Allotment.live_zero).invoke
    (Allotment.knows_live i.graph.rules h.lodged.fits) hcomputed hprepared

/-- Failing is final. -/
theorem round_of_failed {known : Option Tables} (h : i.state = .failed known) (s : Site σ π)
    (writes : List (Nat × Bytes)) :
    (i.round s writes).1 = .error .failed ∧ (i.round s writes).2.1 = i := by
  unfold Interpreter.round Interpreter.invoke
  rw [h]
  exact ⟨rfl, rfl⟩

theorem rounds_of_failed {known : Option Tables} (h : i.state = .failed known) (s : Site σ π)
    (all : List (List (Nat × Bytes))) : (i.rounds s all).1 = i := by
  induction all generalizing s with
  | nil => rfl
  | cons writes rest ih =>
    show ((i.round s writes).2.1.rounds (i.round s writes).2.2 rest).1 = i
    rw [(round_of_failed h s writes).2]
    exact ih (i.round s writes).2.2

/-- Rounds: the interpreter follows the reference, unless it has failed. -/
theorem Follows.rounds {v : Stores} (h : i.Follows tables a (fun _ => False) v s)
    (hcomputed : i.graph.toGraph.Computed i.kernels meanings)
    (hprepared : a.Prepared i.graph.toGraph i.kernels) {all : List (List (Nat × Bytes))}
    (hfull : ∀ writes ∈ all, i.graph.toGraph.Full writes) :
    (i.rounds s all).1 = i ∧
        i.Follows tables a (fun _ => False) (all.foldl (Stores.round i.graph.toGraph meanings) v)
          (i.rounds s all).2 ∨
      (i.rounds s all).1.state = .failed (some tables) := by
  induction all generalizing v s with
  | nil => exact .inl ⟨rfl, h⟩
  | cons writes rest ih =>
    obtain ⟨hfirst, hrest⟩ := List.forall_mem_cons.mp hfull
    show ((i.round s writes).2.1.rounds (i.round s writes).2.2 rest).1 = i ∧ i.Follows tables a _ _
      ((i.round s writes).2.1.rounds (i.round s writes).2.2 rest).2 ∨
        ((i.round s writes).2.1.rounds (i.round s writes).2.2 rest).1.state = _
    rcases h.round hcomputed hprepared hfirst with ⟨hsame, hnext⟩ | ⟨-, hfailed⟩
    · rw [hsame]
      exact ih (hnext.mono nofun) hrest
    · rw [rounds_of_failed hfailed]
      exact .inr hfailed

/-! ## Reading results -/

theorem Follows.hold_ne {live : Nat → Prop} {v : Stores} (h : i.Follows tables a live v s) :
    s.hold ≠ .exclusive := by
  rw [h.hold]
  nofun

/-- With all outputs live, a graph output or a variable is handed out as the reference has it, from
the same place each time. -/
theorem Follows.tensor_at {v : Stores} (h : i.Follows tables a
      (i.graph.toGraph.Live i.graph.operators.length) v s) (hmade : i.Made) {id : Nat} {t : Tensor}
    (ht : i.graph.tensors[id]? = some t) (hout : id ∈ i.graph.outputs ∨ t.kind = .var) :
    ∃ bytes, v.value i.graph.toGraph (some id) = some bytes ∧
      i.tensor s id = .ok ⟨t, ⟨if t.data.isSome then 0 else (a.rangeOf id).offset, bytes⟩⟩ := by
  have hc := i.graph.rules
  cases hd : t.data with
  | some data => exact ⟨_, v.value_of_constant ht hd, h.lodged.tensor_constant h.hold_ne ht hd⟩
  | none =>
    have hlive : t.kind = .activation → i.graph.toGraph.Live i.graph.operators.length id := by
      intro hkind
      have hid : id ∈ i.graph.outputs := by
        refine hout.resolve_right fun hvar => ?_
        rw [hkind] at hvar
        cases hvar
      refine ⟨hc.output id hid t ht hkind, fun l hl => ?_⟩
      have halive := hl.aliveAt (Graph.mem_touches.mpr (.inr (.inr ⟨hid, rfl⟩)))
      have := halive.2
      omega
    have hs : i.graph.toGraph.Stored id t := by
      refine Graph.stored_of_touched ht hd fun hkind => ?_
      obtain ⟨j, -, hj⟩ := (hlive hkind).hasValue.touched
      exact ⟨j, hj⟩
    obtain ⟨span, hspan, -, hlen, -⟩ := h.lodged.fits.stored hs
    rw [Allotment.rangeOf_eq hspan]
    refine ⟨_, ?_, h.lodged.tensor_eq h.hold_ne hs hspan⟩
    rw [v.value_of_data ht hd]
    by_cases hnumber : a.scratch.length ≤ 2 ^ 32
    · have hb : a.Bindable i.graph.toGraph s.memory :=
        ⟨hnumber, h.lodged.start_le, hmade.inputs, hmade.outputs⟩
      rw [← (h.tracks hb).tensors id t hs hlive, Allotment.rangeOf_eq hspan]
    · -- The scratch table fills all offsets that spans can have.
      have hzero := h.lodged.fits.size_eq_zero (Nat.lt_of_not_le hnumber) hs
      have hbytes : (v.tensors id).length = 0 := by
        rw [h.sized id, Graph.sizeOf_eq ht, hzero]
      rw [List.eq_nil_of_length_eq_zero hbytes, Memory.piece, hlen, hzero]
      rfl

theorem Follows.tensor_eq {v : Stores} (h : i.Follows tables a
      (i.graph.toGraph.Live i.graph.operators.length) v s) (hmade : i.Made) {id : Nat} {t : Tensor}
    (ht : i.graph.tensors[id]? = some t) (hout : id ∈ i.graph.outputs ∨ t.kind = .var) :
    ∃ handle, i.tensor s id = .ok handle ∧ handle.tensor = t ∧
      v.value i.graph.toGraph (some id) = some handle.slice.bytes := by
  obtain ⟨bytes, hvalue, htensor⟩ := h.tensor_at hmade ht hout
  exact ⟨_, htensor, rfl, hvalue⟩

/-- After rounds of which the last one succeeds, graph outputs and variables read as the reference has
them. -/
theorem Follows.tensor_rounds {v : Stores} (h : i.Follows tables a (fun _ => False) v s)
    (hmade : i.Made) (hcomputed : i.graph.toGraph.Computed i.kernels meanings)
    (hprepared : a.Prepared i.graph.toGraph i.kernels) {earlier : List (List (Nat × Bytes))}
    {last : List (Nat × Bytes)}
    (hfull : ∀ writes ∈ earlier ++ [last], i.graph.toGraph.Full writes) {i' : Interpreter σ π}
    {s' : Site σ π}
    (hround : (i.rounds s earlier).1.round (i.rounds s earlier).2 last = (.ok (), i', s')) {id : Nat}
    {t : Tensor} (ht : i.graph.tensors[id]? = some t)
    (hout : id ∈ i.graph.outputs ∨ t.kind = .var) :
    ∃ handle, i'.tensor s' id = .ok handle ∧ handle.tensor = t ∧
      ((earlier ++ [last]).foldl (Stores.round i.graph.toGraph meanings) v).value i.graph.toGraph
        (some id) = some handle.slice.bytes := by
  obtain ⟨hbefore, hlast⟩ := List.forall_mem_append.mp hfull
  rcases h.rounds hcomputed hprepared hbefore with ⟨hsame, hthen⟩ | hfailed
  · rw [hsame] at hround
    rcases hthen.round hcomputed hprepared (hlast last List.mem_cons_self) with
      ⟨hsame', hend⟩ | ⟨hanswer, -⟩
    · rw [hround] at hsame' hend
      cases hsame'
      rw [List.foldl_append]
      exact hend.tensor_eq hmade ht hout
    · rw [hround] at hanswer
      exact absurd rfl hanswer
  · have herror := (round_of_failed hfailed (i.rounds s earlier).2 last).1
    rw [hround] at herror
    cases herror

/-! ## From the start -/

/-- An interpreter that was just allocated follows the reference from its start. -/
theorem follows_of_committed {i : Interpreter σ π} {s s₁ s' : Site σ π} {tables : Tables}
    {a : Allotment} (hs : s.Sound) (hhold : s.hold = .free)
    (h : Pass.Committed i.graph.toGraph i.kernels i.strategy s s₁ tables a) (hq : s₁.Quiet s')
    (hcomputed : i.graph.toGraph.Computed i.kernels meanings) :
    Follows { i with state := .allocated tables } tables a (fun _ => False)
        (Stores.start i.graph.toGraph meanings) s' ∧
      a.Prepared i.graph.toGraph i.kernels := by
  obtain ⟨hprepared, htracks⟩ := h.tracks hs hcomputed
  refine ⟨⟨⟨rfl, ?_, lodged_of_committed hs h hq⟩, Stores.start_sized _ _, fun _ => ?_⟩, hprepared⟩
  · rw [hq.hold_eq, h.since.hold_eq, hhold]
  · rw [hq.memory_eq]
    exact htracks

/-- Planning keeps the meaning of a graph: whatever the arena held when the interpreter was allocated,
and whatever the rounds before have answered, after a round that succeeds all graph outputs and all
variables have the bytes that the reference computes with stores of their own. -/
theorem rounds_refine_reference {i i₁ i₂ : Interpreter σ π} {s s₁ s₂ : Site σ π} (hmade : i.Made)
    (hcreated : i.state = .created) (hstrategy : i.strategy = .firstFit ∨ i.strategy = .linear)
    (hcomputed : i.graph.toGraph.Computed i.kernels meanings) (hs : s.Sound)
    (hallocate : i.allocate s = (.ok (), i₁, s₁)) {earlier : List (List (Nat × Bytes))}
    {last : List (Nat × Bytes)}
    (hfull : ∀ writes ∈ earlier ++ [last], i.graph.toGraph.Full writes)
    (hround : (i₁.rounds s₁ earlier).1.round (i₁.rounds s₁ earlier).2 last = (.ok (), i₂, s₂))
    {id : Nat} (hid : id ∈ i.graph.outputs ∨ i.graph.toGraph.IsVar id) :
    ∃ handle, i₂.tensor s₂ id = .ok handle ∧ i.graph.tensors[id]? = some handle.tensor ∧
      (Stores.rounds i.graph.toGraph meanings (earlier ++ [last])).value i.graph.toGraph (some id) =
        some handle.slice.bytes := by
  have hsound : i.strategy.Sound := by
    rcases hstrategy with heq | heq
    · rw [heq]
      exact Strategy.firstFit_sound
    · rw [heq]
      exact Strategy.linear_sound
  obtain ⟨t, ht, hout⟩ : ∃ t, i.graph.tensors[id]? = some t ∧
      (id ∈ i.graph.outputs ∨ t.kind = .var) := by
    rcases hid with hout | ⟨t, ht, hkind⟩
    · exact ⟨_, List.getElem?_eq_getElem (i.graph.rules.output_lt id hout), .inl hout⟩
    · exact ⟨t, ht, .inr hkind⟩
  have hallocating := allocating i hs hmade.kernels_length hsound
  rw [hallocate] at hallocating
  cases hallocating with
  | stayed hstayed => exact absurd hcreated (hstayed rfl)
  | done _ hhold hcommitted hquiet =>
    obtain ⟨hfollows, hprepared⟩ := follows_of_committed hs hhold hcommitted hquiet hcomputed
    obtain ⟨handle, hhandle, rfl, hvalue⟩ := hfollows.tensor_rounds
      ⟨hmade.kernels_length, hmade.inputs, hmade.outputs⟩ hcomputed hprepared hfull hround ht hout
    exact ⟨handle, hhandle, ht, hvalue⟩

end Interpreter

/-! ## A chain of two sums -/

/-- An input added to itself, and the sum added to itself. -/
def Graph.fourfold : Graph where
  name := "fourfold"
  tensors := [Sample.scalar "x", Sample.scalar "twice", Sample.scalar "fourfold"]
  operators := [⟨"first", .add, [some 0, some 0], [some 1]⟩,
    ⟨"second", .add, [some 1, some 1], [some 2]⟩]
  inputs := [0]
  outputs := [2]

namespace Interpreter

/-- The interpreter of the chain under a strategy. -/
def chain (strategy : Strategy) : Interpreter Unit π where
  graph := ⟨Graph.fourfold, rfl⟩
  kernels := [Elementwise.kernel .add id, Elementwise.kernel .add id]
  strategy

/-- The chain, allocated in an arena whose bytes are not zero. -/
def chainAllocated (strategy : Strategy) :
    Except AllocationError Unit × Interpreter Unit Unit × Site Unit Unit :=
  (chain strategy).allocate (.ofBuffer 0 (.replicate 112 255) () ())

/-- The second round of the chain: its input is 7 in the first one and now 21. -/
def chainSecond (strategy : Strategy) :
    Except ExecutionError Unit × Interpreter Unit Unit × Site Unit Unit :=
  let first := (chainAllocated strategy).2.1.rounds (chainAllocated strategy).2.2 [[(0, [7, 0, 0, 0])]]
  first.1.round first.2 [(0, [21, 0, 0, 0])]

/-- Under first fit the chain writes its result over its input, and still shows what the reference
computes. -/
theorem rounds_refine_reference_of_chain :
    ∃ handle, (chainSecond .firstFit).2.1.tensor (chainSecond .firstFit).2.2 2 = .ok handle ∧
      handle.slice.bytes = [84, 0, 0, 0] := by
  have hallocated : chainAllocated .firstFit =
      (.ok (), (chainAllocated .firstFit).2.1, (chainAllocated .firstFit).2.2) :=
    Prod.ext (show (chainAllocated .firstFit).1 = .ok () by
      rw [Strategy.firstFit_eq]
      decide +kernel) (Prod.eta _).symm
  have hsecond : chainSecond .firstFit =
      (.ok (), (chainSecond .firstFit).2.1, (chainSecond .firstFit).2.2) :=
    Prod.ext (show (chainSecond .firstFit).1 = .ok () by
      rw [Strategy.firstFit_eq]
      decide +kernel) (Prod.eta _).symm
  have hword : ∀ bytes : Bytes, bytes.length = 4 → Graph.fourfold.Full [(0, bytes)] := by
    intro bytes hlen
    refine ⟨fun index other id hmem hid => ?_, fun index hindex => ⟨bytes, ?_⟩⟩
    · cases List.mem_singleton.mp hmem
      cases hid
      exact hlen
    · obtain rfl : index = 0 := Nat.lt_one_iff.mp hindex
      exact List.mem_singleton_self _
  have hfull : ∀ writes ∈ [[(0, [7, 0, 0, 0])]] ++ [[(0, [21, 0, 0, 0])]],
      Graph.fourfold.Full writes :=
    List.forall_mem_cons.mpr ⟨hword _ rfl, List.forall_mem_singleton.mpr (hword _ rfl)⟩
  have hsound : Site.Sound (Site.ofBuffer 0 (.replicate 112 255) () () : Site Unit Unit) :=
    Site.ofBuffer_sound ..
  have hcreate : create ⟨Graph.fourfold, rfl⟩ (Registry.samples id).resolver
      (Site.ofBuffer 0 (.replicate 112 255) () () : Site Unit Unit) = (.ok (chain .firstFit), _) := rfl
  have houtput : 2 ∈ Graph.fourfold.outputs ∨ Graph.fourfold.IsVar 2 := .inl (by decide)
  obtain ⟨handle, hhandle, -, hvalue⟩ := rounds_refine_reference (create_ok hcreate).1 rfl (.inl rfl)
    (computed_of_create hcreate (by decide)) hsound hallocated hfull hsecond houtput
  have hreference : (Stores.rounds Graph.fourfold
      (Graph.fourfold.operators.map (Operator.meaning Graph.fourfold))
        ([[(0, [7, 0, 0, 0])]] ++ [[(0, [21, 0, 0, 0])]])).value Graph.fourfold (some 2) =
          some [84, 0, 0, 0] := by
    decide +kernel
  exact ⟨handle, hhandle, Option.some.inj (hvalue.symm.trans hreference)⟩

end Interpreter

end TensorArena
