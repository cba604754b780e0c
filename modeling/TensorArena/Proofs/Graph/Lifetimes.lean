import TensorArena.Plan.Liveness
import TensorArena.Proofs.Graph.Checked
import TensorArena.Proofs.Plan.Contract

/-!
# Lifetimes of a checked graph

Every tensor that is planned is alive at each operator that needs it, so two tensors that one
operator needs have lifetimes that overlap. No tensor is planned twice.
-/

namespace TensorArena

theorem foldl_min_le (ns : List Nat) (b : Nat) :
    ns.foldl min b ≤ b ∧ ∀ n ∈ ns, ns.foldl min b ≤ n := by
  induction ns generalizing b with
  | nil => exact ⟨Nat.le_refl _, nofun⟩
  | cons n rest ih =>
    obtain ⟨hb, hrest⟩ := ih (min b n)
    refine ⟨by rw [List.foldl_cons]; omega, fun m hm => ?_⟩
    rw [List.foldl_cons]
    rcases List.mem_cons.mp hm with rfl | hm
    · omega
    · exact hrest m hm

namespace Graph

variable {g : Graph} {id k : Nat}

theorem mem_touches : k ∈ g.touches id ↔ (id ∈ g.inputs ∧ k = 0) ∨
    (∃ op, g.operators[k]? = some op ∧ id ∈ op.operandIds) ∨
    (id ∈ g.outputs ∧ k = g.operators.length - 1) := by
  have hops : k ∈ (g.operators.zipIdx.filter fun p => id ∈ p.1.operandIds).map (·.2) ↔
      ∃ op, g.operators[k]? = some op ∧ id ∈ op.operandIds := by
    simp only [List.mem_map, List.mem_filter, decide_eq_true_eq, Prod.exists,
      List.mk_mem_zipIdx_iff_getElem?]
    constructor
    · rintro ⟨op, k, ⟨hk, hid⟩, rfl⟩
      exact ⟨op, hk, hid⟩
    · rintro ⟨op, hk, hid⟩
      exact ⟨op, k, ⟨hk, hid⟩, rfl⟩
  unfold touches
  rw [List.mem_append, List.mem_append, hops, or_assoc]
  refine or_congr ?_ (or_congr Iff.rfl ?_)
  · split <;> simp_all
  · split <;> simp_all

/-- What a lifetime says about its tensor. -/
theorem lifetime?_eq_some {size : Nat} {l : Lifetime} (h : g.lifetime? id size = some l) :
    l.buffer = .tensor id ∧ l.size = size ∧ ∀ k ∈ g.touches id, l.AliveAt k := by
  unfold lifetime? at h
  split at h
  · cases h
  · rename_i n ns htouches
    cases h
    obtain ⟨hmin, hmins⟩ := foldl_min_le ns n
    obtain ⟨hmax, hmaxs⟩ := le_foldl_max ns n
    refine ⟨rfl, rfl, fun k hk => ?_⟩
    rw [htouches] at hk
    rcases List.mem_cons.mp hk with rfl | hk
    · exact ⟨hmin, hmax⟩
    · exact ⟨hmins k hk, hmaxs k hk⟩

/-- The tensor is planned, with that lifetime. -/
def Planned (g : Graph) (id : Nat) (l : Lifetime) : Prop :=
  ∃ t, g.tensors[id]? = some t ∧ t.kind = .activation ∧ g.lifetime? id t.size = some l

theorem Planned.buffer_eq {l : Lifetime} (h : g.Planned id l) : l.buffer = .tensor id := by
  obtain ⟨t, -, -, hl⟩ := h
  exact (lifetime?_eq_some hl).1

theorem Planned.size_eq {l : Lifetime} (h : g.Planned id l) {t : Tensor}
    (ht : g.tensors[id]? = some t) : l.size = t.size := by
  obtain ⟨t', ht', -, hl⟩ := h
  rw [ht] at ht'
  cases ht'
  exact (lifetime?_eq_some hl).2.1

theorem Planned.kind_eq {l : Lifetime} (h : g.Planned id l) {t : Tensor}
    (ht : g.tensors[id]? = some t) : t.kind = .activation := by
  obtain ⟨t', ht', hkind, -⟩ := h
  cases ht.symm.trans ht'
  exact hkind

theorem Planned.aliveAt {l : Lifetime} (h : g.Planned id l) (hk : k ∈ g.touches id) :
    l.AliveAt k := by
  obtain ⟨t, -, -, hl⟩ := h
  exact (lifetime?_eq_some hl).2.2 k hk

theorem Planned.lt {l : Lifetime} (h : g.Planned id l) : id < g.tensors.length := by
  obtain ⟨t, ht, -⟩ := h
  exact (List.getElem?_eq_some_iff.mp ht).1

theorem mem_lifetimes {l : Lifetime} : l ∈ g.lifetimes ↔ ∃ id, g.Planned id l := by
  simp only [lifetimes, Planned, List.mem_filterMap, Prod.exists, List.mk_mem_zipIdx_iff_getElem?,
    Option.ite_none_right_eq_some]
  constructor
  · rintro ⟨t, id, ht, hkind, hl⟩
    exact ⟨id, t, ht, hkind, hl⟩
  · rintro ⟨id, t, ht, hkind, hl⟩
    exact ⟨t, id, ht, hkind, hl⟩

/-- An activation that something needs is planned. -/
theorem exists_planned {t : Tensor} (h : g.tensors[id]? = some t) (hkind : t.kind = .activation)
    (hk : k ∈ g.touches id) : ∃ l, g.Planned id l := by
  cases hl : g.lifetime? id t.size with
  | some l => exact ⟨l, t, h, hkind, hl⟩
  | none =>
    unfold lifetime? at hl
    split at hl
    · rename_i hnone
      rw [hnone] at hk
      cases hk
    · cases hl

/-- The tensor has bytes in the arena: it is a variable, or an activation that something needs. -/
def Stored (g : Graph) (id : Nat) (t : Tensor) : Prop :=
  g.tensors[id]? = some t ∧ (t.kind = .var ∨ ∃ l, g.Planned id l)

theorem Stored.data_eq_none {t : Tensor} (h : g.Stored id t) : t.data = none := by
  obtain ⟨ht, hkind | ⟨l, hl⟩⟩ := h
  · exact (Tensor.data_of_kind_var hkind).1
  · exact (Tensor.data_of_kind_activation (hl.kind_eq ht)).1

/-- A tensor without data of its own has bytes in the arena, unless nothing needs it. -/
theorem stored_of_touched {t : Tensor} (ht : g.tensors[id]? = some t) (hd : t.data = none)
    (hneeded : t.kind = .activation → ∃ k, k ∈ g.touches id) : g.Stored id t := by
  refine ⟨ht, ?_⟩
  cases hkind : t.kind with
  | constant =>
    obtain ⟨d, hd'⟩ := Tensor.data_of_kind_constant hkind
    rw [hd] at hd'
    cases hd'
  | var => exact .inl rfl
  | activation =>
    obtain ⟨k, hk⟩ := hneeded hkind
    exact .inr (exists_planned ht hkind hk)

theorem stored_of_operand {op : Operator} (hop : g.operators[k]? = some op)
    (hid : id ∈ op.operandIds) {t : Tensor} (ht : g.tensors[id]? = some t) (hd : t.data = none) :
    g.Stored id t :=
  stored_of_touched ht hd fun _ => ⟨k, mem_touches.mpr (.inr (.inl ⟨op, hop, hid⟩))⟩

theorem zipIdx_pairwise_lt (l : List α) : l.zipIdx.Pairwise fun a b => a.2 < b.2 := by
  rw [List.pairwise_iff_getElem]
  intro i j hi hj hij
  simpa only [List.getElem_zipIdx, Nat.zero_add] using hij

/-- Lifetimes come in the order of their tensors, one for each. -/
theorem lifetimes_pairwise (g : Graph) :
    g.lifetimes.Pairwise fun a b => a.buffer ≠ b.buffer := by
  unfold lifetimes
  rw [List.pairwise_filterMap]
  refine (zipIdx_pairwise_lt g.tensors).imp ?_
  rintro ⟨t, id⟩ ⟨t', id'⟩ hlt l hl l' hl'
  obtain ⟨-, hl⟩ := Option.ite_none_right_eq_some.mp hl
  obtain ⟨-, hl'⟩ := Option.ite_none_right_eq_some.mp hl'
  rw [(lifetime?_eq_some hl).1, (lifetime?_eq_some hl').1]
  intro heq
  cases heq
  exact Nat.lt_irrefl _ hlt

end Graph

end TensorArena
