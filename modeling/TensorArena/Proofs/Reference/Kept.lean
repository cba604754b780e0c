import TensorArena.Proofs.Plan.Linear
import TensorArena.Proofs.Reference.Tracks

/-!
# Graph inputs that stay

The planner gives up the bytes of a graph input after its last reader, and an operator that runs later
may write over them. `KeepsInputs` says that none does, and then the inputs are known throughout a run,
and not only while they are live. It holds under every strategy when the last operator still needs
every input, and under linear placement always.
-/

namespace TensorArena

variable {σ π : Type}

/-- The tensor is live, or it is a graph input. -/
def Graph.LiveOrInput (g : Graph) (k id : Nat) : Prop :=
  g.Live k id ∨ id ∈ g.inputs

/-- No graph input is written by an operator. -/
theorem Graph.Checked.input_not_target {g : Graph} (hc : g.Checked) {k : Nat} {op : Operator}
    (hop : g.operators[k]? = some op) {id : Nat} (hin : id ∈ g.inputs) : id ∉ op.targets g := by
  intro hmem
  rcases List.mem_append.mp hmem with hv | hout
  · obtain ⟨t, ht, hvar⟩ := of_decide_eq_true (List.mem_filter.mp hv).2
    obtain ⟨t', ht', hkind⟩ := hc.input id hin
    cases ht.symm.trans ht'
    rw [hvar] at hkind
    cases hkind
  · exact (hc.write k op hop id hout).2.1 hin

theorem Graph.Checked.planned_input {g : Graph} (hc : g.Checked) {id : Nat} (hin : id ∈ g.inputs) :
    ∃ t l, g.Stored id t ∧ t.kind = .activation ∧ g.Planned id l := by
  obtain ⟨t, ht, hkind⟩ := hc.input id hin
  obtain ⟨l, hl⟩ := Graph.exists_planned ht hkind (Graph.mem_touches.mpr (.inl ⟨hin, rfl⟩))
  exact ⟨t, l, ⟨ht, .inr ⟨l, hl⟩⟩, hkind, hl⟩

namespace Allotment

variable {a : Allotment} {g : Graph} {tables : Tables}

/-- No operator writes into the bytes of a graph input. -/
def KeepsInputs (a : Allotment) (g : Graph) : Prop :=
  ∀ op ∈ g.operators, ∀ x ∈ op.targets g, ∀ id ∈ g.inputs, (a.rangeOf x).Apart (a.rangeOf id)

/-- Then the inputs are known besides what is live. -/
theorem knows_liveOrInput (hc : g.Checked) (h : a.Fits g tables) (hkeeps : a.KeepsInputs g) :
    a.Knows g g.LiveOrInput where
  reads k op id t hop hin ht hkind := .inl ((knows_live hc h).reads k op id t hop hin ht hkind)
  keeps k op id l hop hl hnot hknown := by
    rcases hknown with hlive | hin
    · obtain ⟨hbefore, hapart⟩ := (knows_live hc h).keeps k op id l hop hl hnot hlive
      exact ⟨.inl hbefore, hapart⟩
    · exact ⟨.inr hin, fun x hx => hkeeps op (List.mem_of_getElem? hop) x hx id hin⟩

/-! ## When inputs stay -/

/-- An input that the last operator needs, or the owner of the graph, is alive throughout. -/
theorem keepsInputs_of_needed (hc : g.Checked) (h : a.Fits g tables)
    (hneeded : ∀ id ∈ g.inputs, g.operators.length - 1 ∈ g.touches id) : a.KeepsInputs g := by
  intro op hmem x hx id hin
  obtain ⟨k, hop⟩ := List.mem_iff_getElem?.mp hmem
  obtain ⟨t, -, hs, -⟩ := hc.planned_input hin
  apply target_apart_tensor hc h hop hs ?_ (hc.input_not_target hop hin) hx
  intro l hl
  have hfirst := hl.aliveAt (Graph.mem_touches.mpr (.inl ⟨hin, rfl⟩))
  have hlast := hl.aliveAt (hneeded id hin)
  have hk := (List.getElem?_eq_some_iff.mp hop).1
  exact ⟨Nat.le_trans hfirst.1 (Nat.zero_le k), Nat.le_trans (by omega) hlast.2⟩

/-- Two planned tensors whose placements share no bytes are apart. -/
theorem apart_of_ordered {p : Plan} {base : Nat} (hentered : Pass.Entered g p base a.spans)
    (hordered : p.placements.Pairwise fun q r => q.stop < Word.max → q.stop ≤ r.offset)
    {x y : Nat} {l l' : Lifetime} (hx : g.Planned x l) (hy : g.Planned y l') (hne : x ≠ y) :
    (a.rangeOf x).Apart (a.rangeOf y) := by
  obtain ⟨q, hq, rfl, hstop, span, hspan, hrange⟩ := hentered x l hx
  obtain ⟨r, hr, rfl, hstop', span', hspan', hrange'⟩ := hentered y l' hy
  have hqr : q ≠ r := by
    intro heq
    apply hne
    rw [heq] at hx
    exact BufferId.tensor.inj (hx.buffer_eq.symm.trans hy.buffer_eq)
  have hor : q.stop ≤ r.offset ∨ r.stop ≤ q.offset := by
    refine rel_of_mem_of_pairwise (R := fun q r => q.stop < Word.max → r.stop < Word.max →
      q.stop ≤ r.offset ∨ r.stop ≤ q.offset) ?_ (hordered.imp ?_) hq hr hqr hstop hstop'
    · intro q r h hr hq
      exact (h hq hr).symm
    · intro q r h hq _
      exact .inl (h hq)
  rw [rangeOf_eq hspan, rangeOf_eq hspan', hrange, hrange']
  intro z hz hz'
  simp only [Pass.placedRange, ByteRange.Covers, ByteRange.stop, Placement.stop] at hz hz' hor
  omega

end Allotment

/-- Linear placement keeps the inputs. -/
theorem Pass.Committed.keepsInputs {g : Graph} {kernels : List (Kernel σ)} {s s' : Site σ π}
    {tables : Tables} {a : Allotment} (hc : g.Checked)
    (h : Committed g kernels .linear s s' tables a) : a.KeepsInputs g := by
  obtain ⟨p, room, base, hplace, hentered⟩ := h.planned
  intro op hmem x hx id hin
  obtain ⟨k, hop⟩ := List.mem_iff_getElem?.mp hmem
  obtain ⟨t, l, hs, hkind, hl⟩ := hc.planned_input hin
  obtain ⟨t', ht', hvar | ⟨l', hl'⟩⟩ := Allotment.stored_of_target hc hop hx
  · -- A variable lies apart from all activations.
    obtain ⟨span, hspan, -⟩ := h.fits.stored hs
    obtain ⟨span', hspan', -⟩ := h.fits.stored ⟨ht', .inl hvar⟩
    rw [Allotment.rangeOf_eq hspan, Allotment.rangeOf_eq hspan']
    refine h.fits.stored_apart ⟨ht', .inl hvar⟩ hs ?_ ?_ hspan' hspan
    · intro heq
      rw [heq] at hx
      exact hc.input_not_target hop hin hx
    · intro l₁ l₂ hl₁ _
      have hactivation := hl₁.kind_eq ht'
      rw [hvar] at hactivation
      cases hactivation
  · refine Allotment.apart_of_ordered hentered (Strategy.linear_ordered hplace) hl' hl ?_
    intro heq
    rw [heq] at hx
    exact hc.input_not_target hop hin hx

end TensorArena
