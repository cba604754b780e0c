import TensorArena.Proofs.Reference.Rounds

/-!
# Stores that runs can lead to

Between two invocations the activations of an interpreter may change in any way: later operators have
used their bytes, and the owner of the interpreter writes tensors. What lasts are the variables that
nobody writes, and the persistent data. `Stores.Reached` are the stores that so many runs can lead to
when everything else may change in between. An arena is read as stores (`Allotment.stores`), and an
interpreter that is allocated `Reaches` so many runs when its arena, read so, is among them: it starts
there, it stays there while others act on the store, and a run that succeeds takes it one further.
-/

namespace TensorArena

variable {σ π : Type}

namespace Stores

/-- Persistent data are the same, and so are variables that are not among those written. -/
structure Kept (g : Graph) (written : Nat → Prop) (v v' : Stores) : Prop where
  vars : ∀ id t, g.tensors[id]? = some t → t.kind = .var → ¬ written id →
    v'.tensors id = v.tensors id
  persistent : ∀ k < g.operators.length, v'.persistent k = v.persistent k

/-- The stores that so many runs can lead to, with changes before and after each of them. -/
inductive Reached (g : Graph) (meanings : List Meaning) (written : Nat → Prop) :
    (runs : Nat) → Stores → Prop
  | start : Reached g meanings written 0 (.start g meanings)
  | run {runs : Nat} {v : Stores} : Reached g meanings written runs v →
      Reached g meanings written (runs + 1) (.run g (g.operators.zip meanings) 0 v)
  | change {runs : Nat} {v v' : Stores} : Reached g meanings written runs v →
      v.Kept g written v' → Reached g meanings written runs v'

theorem Reached.mono {g : Graph} {meanings : List Meaning} {written written' : Nat → Prop}
    {runs : Nat} {v : Stores} (h : Reached g meanings written runs v)
    (hw : ∀ id, written id → written' id) : Reached g meanings written' runs v := by
  induction h with
  | start => exact .start
  | run _ ih => exact ih.run
  | change _ hkept ih =>
    exact ih.change ⟨fun id t ht hkind hnot => hkept.vars id t ht hkind fun h => hnot (hw id h),
      hkept.persistent⟩

end Stores

/-! ## Arenas as stores -/

namespace Allotment

variable {a : Allotment} {g : Graph} {tables : Tables} {m m' : Memory} {written : Nat → Prop}

/-- What an arena holds. -/
def stores (a : Allotment) (m : Memory) : Stores where
  tensors id := m.piece (a.rangeOf id)
  persistent k := (a.grants[k]?.map fun grant => m.piece (a.rowOf k grant).userRange).getD []

theorem persistent_stores {k : Nat} {grant : Grant} (hg : a.grants[k]? = some grant) :
    (a.stores m).persistent k = m.piece (a.rowOf k grant).userRange := by
  simp [stores, hg]

/-- An arena tracks what it holds, whatever of it is known. -/
theorem tracks_stores (a : Allotment) (g : Graph) (known : Nat → Prop) (m : Memory) :
    a.Tracks g known (a.stores m) m where
  tensors _ _ _ _ := rfl
  persistent _ _ hg := (persistent_stores hg).symm

/-- An arena that tracks stores has kept what lasts of them. -/
theorem Tracks.kept {known : Nat → Prop} {v : Stores} (htracks : a.Tracks g known v m)
    (h : a.Fits g tables) : v.Kept g written (a.stores m) where
  vars id t ht hkind _ := by
    refine htracks.tensors id t ⟨ht, .inl hkind⟩ fun hactivation => ?_
    rw [hkind] at hactivation
    cases hactivation
  persistent k hk := by
    obtain ⟨grant, hg⟩ := h.exists_grant (List.getElem?_eq_getElem hk)
    rw [persistent_stores hg]
    exact htracks.persistent k grant hg

/-- What lasts is kept when its bytes are. -/
theorem stores_kept (h : a.Fits g tables)
    (hvars : ∀ id t, g.tensors[id]? = some t → t.kind = .var → ¬ written id →
      m.AgreeOn m' (a.rangeOf id))
    (hdata : ∀ k grant, a.grants[k]? = some grant → m.AgreeOn m' (a.rowOf k grant).userRange) :
    (a.stores m).Kept g written (a.stores m') where
  vars id t ht hkind hnot := (hvars id t ht hkind hnot).piece_eq
  persistent k hk := by
    obtain ⟨grant, hg⟩ := h.exists_grant (List.getElem?_eq_getElem hk)
    rw [persistent_stores hg, persistent_stores hg]
    exact (hdata k grant hg).piece_eq

/-- What lasts is in blocks of the tail. -/
theorem stores_kept_of_tail (h : a.Fits g tables) (hsize : m'.size = m.size)
    (hagree : ∀ r, ⟨.tail, r, arenaAlignment⟩ ∈ a.blocks → m.AgreeOn m' r) :
    (a.stores m).Kept g written (a.stores m') := by
  refine stores_kept h (fun id t ht hkind _ => ?_) fun k grant hg => ?_
  · obtain ⟨span, hspan, -, -, htook⟩ := h.span_of_var ht hkind
    rw [rangeOf_eq hspan]
    exact hagree _ htook.mem
  · rw [h.userRange_rowOf hg]
    cases hdata : grant.userData with
    | none =>
      exact ⟨hsize, fun x hx => absurd hx (ByteRange.not_covers_of_length_eq_zero rfl x)⟩
    | some r =>
      have hwithin := h.granted.within grant (List.mem_of_getElem? hg)
      exact hagree r (hwithin.userData r hdata).mem

end Allotment

/-! ## Interpreters -/

namespace Interpreter

variable {i : Interpreter σ π} {tables : Tables} {a : Allotment} {meanings : List Meaning}
  {written : Nat → Prop} {runs : Nat} {s s' : Site σ π}

/-- The interpreter is lodged, and what its arena holds is among what so many runs can lead to. -/
structure Reaches (i : Interpreter σ π) (tables : Tables) (a : Allotment) (meanings : List Meaning)
    (written : Nat → Prop) (runs : Nat) (m : Memory) : Prop extends i.Lodged tables a m where
  prepared : a.Prepared i.graph.toGraph i.kernels
  reached : Stores.Reached i.graph.toGraph meanings written runs (a.stores m)

/-- An interpreter that was just allocated has not run. -/
theorem reaches_of_committed {s₁ : Site σ π} (hs : s.Sound)
    (h : Pass.Committed i.graph.toGraph i.kernels i.strategy s s₁ tables a) (hq : s₁.Quiet s')
    (hcomputed : i.graph.toGraph.Computed i.kernels meanings) :
    Reaches { i with state := .allocated tables } tables a meanings written 0 s'.memory := by
  obtain ⟨hprepared, htracks⟩ := h.tracks hs hcomputed
  refine ⟨lodged_of_committed hs h hq, hprepared, .change .start ?_⟩
  rw [hq.memory_eq]
  exact htracks.kept h.fits

theorem Reaches.agree {m m' : Memory} (h : i.Reaches tables a meanings written runs m)
    (hsize : m'.size = m.size)
    (hagree : ∀ r, ⟨.tail, r, arenaAlignment⟩ ∈ a.blocks → m.AgreeOn m' r) :
    i.Reaches tables a meanings written runs m' where
  toLodged := h.toLodged.agree hsize hagree
  prepared := h.prepared
  reached := h.reached.change (Allotment.stores_kept_of_tail h.fits hsize hagree)

/-- An allocated interpreter ran from one site to another, and its arena holds what the reference
computes from what it held before: all that lasts, and the activations that are live. -/
structure RanOnce (i : Interpreter σ π) (tables : Tables) (a : Allotment) (meanings : List Meaning)
    (s s' : Site σ π) : Prop where
  run_eq : i.runOnce tables s = (.ok (), i, s')
  wrote : s.Wrote a.Reach s'
  tracks : a.Tracks i.graph.toGraph (i.graph.toGraph.Live i.graph.operators.length)
    (.run i.graph.toGraph (i.graph.operators.zip meanings) 0 (a.stores s.memory)) s'.memory

/-- A run finds the store held, or does what the reference does, or fails the interpreter. -/
theorem Reaches.runOnce (h : i.Reaches tables a meanings written runs s.memory)
    (hstate : i.state = .allocated tables) (hb : a.Bindable i.graph.toGraph s.memory)
    (hcomputed : i.graph.toGraph.Computed i.kernels meanings) :
    i.runOnce tables s = (.error .busy, i, s) ∨
      (∃ s', i.RanOnce tables a meanings s s') ∨
      (i.runOnce tables s).1 ≠ .ok () ∧ (i.runOnce tables s).2.1.state = .failed (some tables) := by
  by_cases hhold : s.hold = .free
  · refine .inr ?_
    have hserves : i.Serves tables a s := ⟨hstate, hhold, h.toLodged⟩
    have hwrote := (runOnce_wrote h.toLodged).1
    refine hserves.runOnce.imp_left ?_
    rintro ⟨outcome, s', hexec, hrun, hok⟩
    rw [hrun] at hwrote
    rw [hok hb] at hexec hrun
    refine ⟨s', hrun, hwrote, ?_⟩
    exact (Allotment.runAll_tracks i.graph.rules h.fits h.settled hb hcomputed h.prepared
      (Allotment.knows_live i.graph.rules h.fits) (a.tracks_stores _ _ _) i.activeProfiler
      i.context).of_ok hexec
  · exact .inl (if_pos hhold)

/-- After a run the interpreter is one run further. -/
theorem Reaches.ran (h : i.Reaches tables a meanings written runs s.memory)
    (hran : i.RanOnce tables a meanings s s') :
    i.Reaches tables a meanings written (runs + 1) s'.memory where
  toLodged := h.toLodged.wrote hran.wrote rfl h.tables_eq
  prepared := h.prepared
  reached := h.reached.run.change (hran.tracks.kept h.fits)

end Interpreter

end TensorArena
