import Mathlib.Data.List.Forall2
import Mathlib.Order.Bounds.Basic
import TensorArena.Graph.Sample
import TensorArena.Proofs.Graph.Accepted
import TensorArena.Proofs.Graph.Lifetimes
import TensorArena.Proofs.Plan.Reserved

/-!
# Lifetimes from readers and writers

A lifetime is computed from the operators at which a tensor is needed: it goes from the least to the
greatest of them. `Graph.IsLifetime` says what it has to be without that list. A graph input is
there from the start, any other activation from the operator that writes it, of which a checked
graph has exactly one; a graph output lasts until the end, any other one until the last operator
that mentions it.

The least operator is the writer because the check lets nobody read an activation before it is
written; so a lifetime never ends before it starts, and no strategy refuses it for that.
-/

namespace TensorArena

/-! ## Least and greatest -/

/-- A fold that chooses between two numbers ends at one of the numbers it was given. -/
theorem foldl_mem {choose : Nat → Nat → Nat} (hchoose : ∀ a b, choose a b = a ∨ choose a b = b)
    (ns : List Nat) (b : Nat) : ns.foldl choose b ∈ b :: ns := by
  induction ns generalizing b with
  | nil => exact List.mem_cons_self
  | cons n rest ih =>
    rw [List.foldl_cons]
    rcases List.mem_cons.mp (ih (choose b n)) with heq | hmem
    · rw [heq]
      rcases hchoose b n with hb | hn
      · rw [hb]
        exact List.mem_cons_self
      · rw [hn]
        exact List.mem_cons_of_mem _ List.mem_cons_self
    · exact List.mem_cons_of_mem _ (List.mem_cons_of_mem _ hmem)

/-- The entries that a `filterMap` keeps, beside what it makes of them. -/
theorem forall₂_filterMap {α β : Type} (f : α → Option β) (l : List α) :
    List.Forall₂ (fun a b => a ∈ l ∧ f a = some b) (l.filter fun a => (f a).isSome)
      (l.filterMap f) := by
  induction l with
  | nil => exact .nil
  | cons a rest ih =>
    have hrest : List.Forall₂ (fun b c => b ∈ a :: rest ∧ f b = some c) _ _ :=
      ih.imp fun b c h => ⟨List.mem_cons_of_mem a h.1, h.2⟩
    cases hf : f a with
    | none =>
      rw [List.filter_cons_of_neg (by simp [hf]), List.filterMap_cons_none hf]
      exact hrest
    | some b =>
      rw [List.filter_cons_of_pos (by simp [hf]), List.filterMap_cons_some hf]
      exact .cons ⟨List.mem_cons_self, hf⟩ hrest

namespace Graph

variable {g : Graph} {id : Nat} {l : Lifetime}

theorem lifetime?_ends {size : Nat} (h : g.lifetime? id size = some l) :
    l.first ∈ g.touches id ∧ l.last ∈ g.touches id := by
  unfold lifetime? at h
  split at h
  · cases h
  · rename_i k ks htouches
    cases h
    rw [htouches]
    exact ⟨foldl_mem (fun a b => by omega) ks k, foldl_mem (fun a b => by omega) ks k⟩

theorem Planned.isLeast_first (h : g.Planned id l) : IsLeast {k | k ∈ g.touches id} l.first := by
  refine ⟨?_, fun k hk => (h.aliveAt hk).1⟩
  obtain ⟨t, -, -, hl⟩ := h
  exact (lifetime?_ends hl).1

theorem Planned.isGreatest_last (h : g.Planned id l) :
    IsGreatest {k | k ∈ g.touches id} l.last := by
  refine ⟨?_, fun k hk => (h.aliveAt hk).2⟩
  obtain ⟨t, -, -, hl⟩ := h
  exact (lifetime?_ends hl).2

/-! ## Readers and writers -/

def Reads (g : Graph) (k id : Nat) : Prop :=
  ∃ op, g.operators[k]? = some op ∧ id ∈ op.inputIds

def Writes (g : Graph) (k id : Nat) : Prop :=
  ∃ op, g.operators[k]? = some op ∧ id ∈ op.outputIds

/-- A tensor is needed where it is read or written, by an input at the start and by an output at the
end. -/
theorem mem_touches_iff {k : Nat} : k ∈ g.touches id ↔ (id ∈ g.inputs ∧ k = 0) ∨
    (g.Reads k id ∨ g.Writes k id) ∨ (id ∈ g.outputs ∧ k = g.operators.length - 1) := by
  have hmention : (∃ op, g.operators[k]? = some op ∧ id ∈ op.operandIds) ↔
      g.Reads k id ∨ g.Writes k id := by
    simp only [Operator.operandIds, List.mem_append, and_or_left, exists_or]
    rfl
  rw [mem_touches, hmention]

theorem exists_mem_touches_iff : (∃ k, k ∈ g.touches id) ↔ g.References id := by
  constructor
  · rintro ⟨k, hk⟩
    rcases mem_touches.mp hk with ⟨hin, -⟩ | ⟨op, hop, hid⟩ | ⟨hout, -⟩
    · exact .inl hin
    · exact .inr (.inr ⟨op, List.mem_of_getElem? hop, hid⟩)
    · exact .inr (.inl hout)
  · rintro (hin | hout | ⟨op, hop, hid⟩)
    · exact ⟨0, mem_touches.mpr (.inl ⟨hin, rfl⟩)⟩
    · exact ⟨_, mem_touches.mpr (.inr (.inr ⟨hout, rfl⟩))⟩
    · obtain ⟨k, hk⟩ := List.mem_iff_getElem?.mp hop
      exact ⟨k, mem_touches.mpr (.inr (.inl ⟨op, hk, hid⟩))⟩

theorem Planned.hasKind (h : g.Planned id l) : g.HasKind id .activation := by
  obtain ⟨t, ht, hkind, -⟩ := h
  exact ⟨t, ht, hkind⟩

/-- Exactly the activations that something mentions are planned. -/
theorem exists_planned_iff :
    (∃ l, g.Planned id l) ↔ g.HasKind id .activation ∧ g.References id := by
  constructor
  · rintro ⟨l, hl⟩
    exact ⟨hl.hasKind, exists_mem_touches_iff.mp ⟨l.first, hl.isLeast_first.1⟩⟩
  · rintro ⟨⟨t, ht, hkind⟩, hmention⟩
    obtain ⟨k, hk⟩ := exists_mem_touches_iff.mpr hmention
    exact exists_planned ht hkind hk

namespace Checked

variable (h : g.Checked)

include h

/-- No two operators write one tensor. -/
theorem writer_unique {j k : Nat} (hj : g.Writes j id) (hk : g.Writes k id) : j = k := by
  have later : ∀ j k, g.Writes j id → g.Writes k id → ¬ j < k := by
    rintro j k hj ⟨op, hop, hid⟩ hlt
    exact (h.write k op hop id hid).2.2.1 (mem_writtenBefore.mpr ⟨j, hlt, hj⟩)
  have := later j k hj hk
  have := later k j hk hj
  omega

/-- An activation that is no graph input is read only after it was written. -/
theorem writer_before_reader {k : Nat} (hkind : g.HasKind id .activation) (hin : id ∉ g.inputs)
    (hk : g.Reads k id) : ∃ j < k, g.Writes j id := by
  obtain ⟨t, ht, hactivation⟩ := hkind
  obtain ⟨op, hop, hid⟩ := hk
  exact mem_writtenBefore.mp ((h.read k op hop id hid t ht hactivation).resolve_left hin)

/-- An activation that is needed somewhere, and is no graph input, has a writer, and is not needed
before it. -/
theorem exists_writer {k : Nat} (hkind : g.HasKind id .activation) (hin : id ∉ g.inputs)
    (hk : k ∈ g.touches id) : ∃ j ≤ k, g.Writes j id := by
  rcases mem_touches_iff.mp hk with ⟨hin', -⟩ | (hread | hwrite) | ⟨hout, rfl⟩
  · exact absurd hin' hin
  · obtain ⟨j, hlt, hj⟩ := h.writer_before_reader hkind hin hread
    exact ⟨j, Nat.le_of_lt hlt, hj⟩
  · exact ⟨k, Nat.le_refl k, hwrite⟩
  · obtain ⟨t, ht, hactivation⟩ := hkind
    obtain ⟨j, hlt, hj⟩ :=
      mem_writtenBefore.mp ((h.output id hout t ht hactivation).resolve_left hin)
    exact ⟨j, by omega, hj⟩

end Checked

/-! ## What a lifetime is -/

/-- The lifetime of an activation, said by who reads and writes it. -/
structure IsLifetime (g : Graph) (id : Nat) (l : Lifetime) : Prop where
  buffer_eq : l.buffer = .tensor id
  size_eq : ∃ t, g.tensors[id]? = some t ∧ l.size = t.shape.dims.prod * t.dtype.size
  first_of_input : id ∈ g.inputs → l.first = 0
  first_of_written : id ∉ g.inputs → g.Writes l.first id ∧ ∀ k, g.Writes k id → k = l.first
  last_of_output : id ∈ g.outputs → l.last = g.operators.length - 1
  last_of_mentioned : id ∉ g.outputs →
    IsGreatest {k | g.Reads k id ∨ g.Writes k id} l.last ∨
      l.last = 0 ∧ ∀ k, ¬ (g.Reads k id ∨ g.Writes k id)
  /-- What an operator reads was written by one before it, and is kept for it. -/
  reader : id ∉ g.inputs → ∀ k, g.Reads k id → l.first < k ∧ k ≤ l.last
  first_le_last : l.first ≤ l.last

theorem Planned.isLifetime (hl : g.Planned id l) (h : g.Valid) (hc : g.Checked) :
    g.IsLifetime id l := by
  have hkind := hl.hasKind
  obtain ⟨t, ht, -⟩ := hl.hasKind
  obtain ⟨hfirst, hleast⟩ := hl.isLeast_first
  obtain ⟨hlast, hgreatest⟩ := hl.isGreatest_last
  have hwriter : id ∉ g.inputs → g.Writes l.first id := by
    intro hin
    obtain ⟨j, hle, hj⟩ := hc.exists_writer hkind hin hfirst
    have hge : l.first ≤ j := hleast (mem_touches_iff.mpr (.inr (.inl (.inr hj))))
    rwa [Nat.le_antisymm hge hle]
  refine
    { buffer_eq := hl.buffer_eq
      size_eq := ⟨t, ht, ?_⟩
      first_of_input := fun hin => ?_
      first_of_written := fun hin => ⟨hwriter hin, fun k hk => hc.writer_unique hk (hwriter hin)⟩
      last_of_output := fun hout => ?_
      last_of_mentioned := fun hout => ?_
      reader := fun hin k hk => ⟨?_, hgreatest (mem_touches_iff.mpr (.inr (.inl (.inl hk))))⟩
      first_le_last := hgreatest hfirst }
  · rw [hl.size_eq ht, (h.tensor t (List.mem_of_getElem? ht)).size_eq_prod]
  · exact Nat.eq_zero_of_le_zero (hleast (mem_touches_iff.mpr (.inl ⟨hin, rfl⟩)))
  · refine Nat.le_antisymm ?_ (hgreatest (mem_touches_iff.mpr (.inr (.inr ⟨hout, rfl⟩))))
    rcases mem_touches.mp hlast with ⟨-, hzero⟩ | ⟨op, hop, -⟩ | ⟨-, hend⟩
    · omega
    · have hlt := (List.getElem?_eq_some_iff.mp hop).1
      omega
    · omega
  · -- A graph input that nobody mentions is alive at the start only.
    by_cases hmention : ∃ k, g.Reads k id ∨ g.Writes k id
    · refine .inl ⟨?_, fun k hk => hgreatest (mem_touches_iff.mpr (.inr (.inl hk)))⟩
      rcases mem_touches_iff.mp hlast with ⟨-, hzero⟩ | hmentioned | ⟨hout', -⟩
      · obtain ⟨k, hk⟩ := hmention
        have hle : k ≤ l.last := hgreatest (mem_touches_iff.mpr (.inr (.inl hk)))
        obtain rfl : k = l.last := by omega
        exact hk
      · exact hmentioned
      · exact absurd hout' hout
    · refine .inr ⟨?_, fun k hk => hmention ⟨k, hk⟩⟩
      rcases mem_touches_iff.mp hlast with ⟨-, hzero⟩ | hmentioned | ⟨hout', -⟩
      · exact hzero
      · exact absurd ⟨_, hmentioned⟩ hmention
      · exact absurd hout' hout
  · obtain ⟨j, hlt, hj⟩ := hc.writer_before_reader hkind hin hk
    rwa [hc.writer_unique hj (hwriter hin)] at hlt

/-- The numbers of the planned tensors in their order, beside their lifetimes. -/
theorem exists_planned_ids (g : Graph) : ∃ ids : List Nat, ids.Pairwise (· < ·) ∧
    (∀ id, id ∈ ids ↔ ∃ l, g.Planned id l) ∧ List.Forall₂ g.Planned ids g.lifetimes := by
  have hsome : ∀ (e : Tensor × Nat) (l : Lifetime),
      (e ∈ g.tensors.zipIdx ∧
        (if e.1.kind = .activation then g.lifetime? e.2 e.1.size else none) = some l) →
      g.Planned e.2 l := by
    rintro ⟨t, id⟩ l ⟨hmem, hl⟩
    obtain ⟨hkind, hl⟩ := Option.ite_none_right_eq_some.mp hl
    exact ⟨t, List.mk_mem_zipIdx_iff_getElem?.mp hmem, hkind, hl⟩
  have hpairs := (forall₂_filterMap (fun e : Tensor × Nat =>
    if e.1.kind = .activation then g.lifetime? e.2 e.1.size else none) g.tensors.zipIdx).imp hsome
  refine ⟨_, ?_, fun id => ?_, (List.forall₂_map_left_iff (f := Prod.snd)).mpr hpairs⟩
  · exact List.pairwise_map.mpr ((zipIdx_pairwise_lt g.tensors).filter _)
  · simp only [List.mem_map, List.mem_filter, Prod.exists, List.mk_mem_zipIdx_iff_getElem?,
      Option.isSome_iff_exists, Option.ite_none_right_eq_some]
    constructor
    · rintro ⟨t, id, ⟨ht, l, hkind, hl⟩, rfl⟩
      exact ⟨l, t, ht, hkind, hl⟩
    · rintro ⟨l, t, ht, hkind, hl⟩
      exact ⟨t, id, ⟨ht, l, hkind, hl⟩, rfl⟩

end Graph

/-! ## The lifetimes of a checked graph -/

namespace Strategy

/-- Lifetimes that end no sooner than they start are never refused for their ends. -/
theorem place_ne_invalidLifetime {s : Strategy} (hs : s = firstFit ∨ s = linear)
    {lifetimes : List Lifetime} (hordered : ∀ l ∈ lifetimes, l.first ≤ l.last)
    (align capacity : Nat) (buffer : BufferId) (first last : Nat) :
    s.place lifetimes align capacity ≠ .error (.invalidLifetime buffer first last) := by
  have hrefused : ∀ plan : Plan,
      (do checkLifetimes lifetimes align; plan.within capacity : Except PlanError Plan) ≠
        .error (.invalidLifetime buffer first last) := by
    intro plan hplace
    by_cases halign : IsPowerOfTwo align
    · rw [checked_within_eq halign hordered, Plan.within] at hplace
      split at hplace <;> cases hplace
    · rw [checkLifetimes, if_pos halign] at hplace
      cases hplace
  rcases hs with rfl | rfl
  · exact hrefused _
  · exact hrefused _

end Strategy

/-- The lifetimes of a checked graph are those of the activations that an operator or the graph's
inputs or outputs mention, each once and by number, and each `IsLifetime`; none of them is refused
for ending before it starts. -/
theorem CheckedGraph.lifetimes_exact (g : CheckedGraph) :
    (∃ ids : List Nat, ids.Pairwise (· < ·) ∧
      (∀ id, id ∈ ids ↔ g.HasKind id .activation ∧ g.References id) ∧
      List.Forall₂ g.IsLifetime ids g.lifetimes) ∧
    ∀ s : Strategy, s = .firstFit ∨ s = .linear → ∀ align capacity buffer first last,
      s.place g.lifetimes align capacity ≠ .error (.invalidLifetime buffer first last) := by
  have exact : ∀ id l, g.toGraph.Planned id l → g.IsLifetime id l := fun id l hl =>
    hl.isLifetime (Graph.valid_of_check g.checked) g.rules
  constructor
  · obtain ⟨ids, hsorted, hids, hlifetimes⟩ := g.exists_planned_ids
    exact ⟨ids, hsorted, fun id => (hids id).trans Graph.exists_planned_iff, hlifetimes.imp exact⟩
  · intro s hs align capacity buffer first last
    refine Strategy.place_ne_invalidLifetime hs (fun l hl => ?_) align capacity buffer first last
    obtain ⟨id, hl⟩ := Graph.mem_lifetimes.mp hl
    exact (exact id l hl).first_le_last

/-- In a chain of three operators every activation lives from its writer to its reader; the
variables are not among them. -/
example : Graph.Sample.complex.lifetimes = [⟨.tensor 0, 0, 0, 4⟩, ⟨.tensor 2, 0, 1, 4⟩,
    ⟨.tensor 4, 1, 2, 4⟩, ⟨.tensor 6, 2, 2, 4⟩] := by
  decide

end TensorArena
