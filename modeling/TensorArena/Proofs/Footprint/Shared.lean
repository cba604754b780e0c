import Mathlib.Algebra.BigOperators.Group.List.Basic
import Mathlib.Algebra.GroupWithZero.Nat
import TensorArena.Proofs.Footprint.Alone
import TensorArena.Proofs.Reference.Counting

/-!
# The footprint of interpreters that share an arena

Interpreters that are allocated one after another on one site each rewind the head and take from it
again, so at the head they need as much as the largest of them; at the tail what they take adds up. A
demand does not depend on the site, so neither total depends on the order.
-/

namespace TensorArena

variable {σ π : Type}

namespace Interpreter

/-- Allocates interpreters one after another on one site; the first one that fails ends it. -/
def allocateAll : List (Interpreter σ π) → Site σ π → Except AllocationError (Site σ π)
  | [], s => .ok s
  | i :: rest, s =>
    match i.allocate s with
    | (.ok (), _, s) => allocateAll rest s
    | (.error e, _, _) => .error e

theorem allocateAll_cons_ok {i : Interpreter σ π} {rest : List (Interpreter σ π)} {s s' : Site σ π}
    (h : allocateAll (i :: rest) s = .ok s') :
    (i.allocate s).1 = .ok () ∧ allocateAll rest (i.allocate s).2.2 = .ok s' := by
  unfold allocateAll at h
  split at h
  · rename_i heq
    rw [heq]
    exact ⟨rfl, h⟩
  · cases h

/-- What the interpreter uses in some fresh arena that is its own. -/
def UsesAlone (i : Interpreter σ π) (u : Footprint) : Prop :=
  ∃ s : Site σ π, s.Fresh ∧ (i.allocate s).1 = .ok () ∧ (i.allocate s).2.2.footprint = u

/-- Demands that say what each of some interpreters takes on any site. -/
def TakeAnywhere (is : List (Interpreter σ π)) (d : Interpreter σ π → Demand) : Prop :=
  ∀ i ∈ is, ∀ s : Site σ π, s.Open → i.Takes (d i) s

variable {i : Interpreter σ π} {is js : List (Interpreter σ π)} {s s' : Site σ π}

/-- An interpreter that was allocated somewhere can be allocated alone: in an arena that ends where the
tail stood. -/
theorem usesAlone_of_takes {d : Demand} (h : ∀ s : Site σ π, s.Open → i.Takes d s) (hs : s.Open)
    (hok : (i.allocate s).1 = .ok ()) : i.UsesAlone d.footprint := by
  have hfresh : (Site.ofBuffer 0 (.replicate s.arena.tail 0) s.outside s.profile).Fresh :=
    Site.ofBuffer_fresh ..
  have hcapacity : (Site.ofBuffer 0 (.replicate s.arena.tail 0) s.outside s.profile).store.capacity =
      s.arena.tail := by
    change (Arena.ofBuffer 0 (.replicate s.arena.tail 0)).capacity = _
    rw [Arena.capacity_ofBuffer]
    obtain ⟨k, hk⟩ := hs.aligned
    simp only [Arena.ofBuffer, alignDown_of_isPowerOfTwo (show IsPowerOfTwo arenaAlignment by decide)]
    simp only [Memory.replicate, arenaAlignment] at hk ⊢
    omega
  have htakes := h _ hfresh.isOpen
  have hmet : (i.allocate (Site.ofBuffer 0 (.replicate s.arena.tail 0) s.outside s.profile)).1 =
      .ok () := by
    obtain ⟨hfits, -, hroom⟩ := (h s hs).ok_iff.mp hok
    rw [htakes.ok_iff, hfresh.met_iff, hcapacity]
    exact ⟨hfits, hroom⟩
  exact ⟨_, hfresh, hmet, htakes.footprint_eq hfresh hmet⟩

theorem UsesAlone.eq_footprint {d : Demand} (h : ∀ s : Site σ π, s.Open → i.Takes d s)
    {u : Footprint} (hu : i.UsesAlone u) : u = d.footprint := by
  obtain ⟨s, hs, hok, rfl⟩ := hu
  exact (h s hs.isOpen).footprint_eq hs hok

/-- The positions of an arena after a run: the watermark is the largest of the heads that were taken,
the tail is lower by all that was taken from it. -/
theorem allocateAll_moved {d : Interpreter σ π → Demand} (hd : TakeAnywhere is d) (hs : s.Open)
    (h : allocateAll is s = .ok s') :
    (∀ i ∈ is, i.UsesAlone (d i).footprint) ∧ s'.arena.capacity = s.arena.capacity ∧
      s'.arena.watermark = (is.map fun i => (d i).head).foldl max s.arena.watermark ∧
      s'.arena.tail + (is.map fun i => (d i).tail).sum = s.arena.tail := by
  -- On the list, over all open sites: each interpreter finds the site as the one before it left it.
  induction is generalizing s with
  | nil =>
    cases h
    exact ⟨nofun, rfl, rfl, rfl⟩
  | cons i rest ih =>
    obtain ⟨hi, hrest⟩ := List.forall_mem_cons.mp hd
    obtain ⟨hok, h⟩ := allocateAll_cons_ok h
    have htakes := hi s hs
    have hmoved := htakes.moved hok
    obtain ⟨-, -, hroom⟩ := htakes.ok_iff.mp hok
    obtain ⟨halone, hcapacity, hmark, htail⟩ := ih hrest (htakes.isOpen hs hok) h
    refine ⟨List.forall_mem_cons.mpr ⟨usesAlone_of_takes hi hs hok, halone⟩,
      hcapacity.trans hmoved.capacity_eq, ?_, ?_⟩
    · rw [hmark, hmoved.watermark_eq]
      rfl
    · rw [hmoved.tail_eq] at htail
      rw [List.map_cons, List.sum_cons]
      omega

theorem allocateAll_footprint {d : Interpreter σ π → Demand} (hd : TakeAnywhere is d) (hs : s.Fresh)
    (h : allocateAll is s = .ok s') : s'.footprint =
      ⟨(is.map fun i => (d i).head).foldl max 0, (is.map fun i => (d i).tail).sum⟩ := by
  obtain ⟨-, hcapacity, hmark, htail⟩ := allocateAll_moved hd hs.isOpen h
  rw [hs.watermark_eq] at hmark
  have htailUsed : s'.store.tailUsed = (is.map fun i => (d i).tail).sum := by
    change s'.arena.capacity - s'.arena.tail = _
    rw [hcapacity, ← Nat.sub_eq_of_eq_add' htail.symm, hs.tail_eq]
    rfl
  rw [Site.footprint, htailUsed]
  exact congrArg₂ Footprint.mk hmark rfl

theorem eq_map_footprint {d : Interpreter σ π → Demand} (hd : TakeAnywhere is d)
    {us : List Footprint} (hus : List.Forall₂ UsesAlone is us) :
    us = is.map fun i => (d i).footprint := by
  induction hus with
  | nil => rfl
  | cons hu _ ih =>
    obtain ⟨hi, hrest⟩ := List.forall_mem_cons.mp hd
    rw [List.map_cons, hu.eq_footprint hi, ← ih hrest]

theorem exists_takeAnywhere :
    ∃ d : Interpreter σ π → Demand, ∀ is, (∀ i ∈ is, Predictable i) → TakeAnywhere is d := by
  have hdemand : ∀ i : Interpreter σ π, ∃ d : Demand,
      i.Predictable → ∀ s : Site σ π, s.Open → i.Takes d s := by
    intro i
    by_cases hi : i.Predictable
    · obtain ⟨d, -, htakes⟩ := hi.takes
      exact ⟨d, fun _ => htakes⟩
    · exact ⟨.none, fun h => absurd h hi⟩
  choose d hd using hdemand
  exact ⟨d, fun is his i hi => hd i (his i hi)⟩

/-- In a shared arena interpreters use at the head as much as the largest of them uses alone, and at
the tail as much as all of them use alone; each of them uses one and the same when it is alone. So the
order in which they are allocated changes nothing about the totals. -/
theorem shared_footprint (his : ∀ i ∈ is, i.Predictable) (hs : s.Fresh)
    (h : allocateAll is s = .ok s') :
    (∀ i ∈ is, ∃! u, i.UsesAlone u) ∧
      (∀ us, List.Forall₂ UsesAlone is us →
        s'.store.headUsed = (us.map Footprint.head).foldl max 0 ∧
        s'.store.tailUsed = (us.map Footprint.tail).sum) ∧
      ∀ js (t t' : Site σ π), js.Perm is → t.Fresh → allocateAll js t = .ok t' →
        t'.store.headUsed = s'.store.headUsed ∧ t'.store.tailUsed = s'.store.tailUsed := by
  obtain ⟨d, htake⟩ := @exists_takeAnywhere σ π
  have hd := htake is his
  obtain ⟨hhead, htail⟩ := Footprint.mk.inj (allocateAll_footprint hd hs h)
  refine ⟨fun i hi => ?_, fun us hus => ?_, fun js t t' hperm ht h' => ?_⟩
  · have halone := (allocateAll_moved hd hs.isOpen h).1 i hi
    exact ⟨_, halone, fun u hu => hu.eq_footprint (hd i hi)⟩
  · rw [eq_map_footprint hd hus, List.map_map, List.map_map]
    exact ⟨hhead, htail⟩
  · have hd' := htake js fun i hi => his i (hperm.subset hi)
    obtain ⟨hhead', htail'⟩ := Footprint.mk.inj (allocateAll_footprint hd' ht h')
    rw [hhead, htail, hhead', htail']
    exact ⟨(hperm.map _).foldl_eq 0, (hperm.map _).sum_eq⟩

theorem counter_predictable : counter.Predictable where
  created := rfl
  kernels_length := rfl
  uniform := Strategy.linear_uniform
  settled := List.forall_mem_singleton.mpr ⟨.done, .done⟩

theorem shared_footprint_of_two :
    ∃ s', allocateAll [stateful, counter] (.zeroed 0 1024) = .ok s' ∧
      s'.store.headUsed = 16 ∧ s'.store.tailUsed = 128 + 64 ∧
      ∀ t', allocateAll [counter, stateful] (.zeroed 0 512) = .ok t' →
        t'.store.headUsed = 16 ∧ t'.store.tailUsed = 128 + 64 := by
  have hpredictable : ∀ i ∈ [stateful, counter], i.Predictable :=
    List.forall_mem_cons.mpr ⟨stateful_predictable, List.forall_mem_singleton.mpr counter_predictable⟩
  have hstateful : stateful.UsesAlone ⟨16, 128⟩ :=
    ⟨.zeroed 0 256, Site.zeroed_fresh .., by decide +kernel, by decide +kernel⟩
  have hcounter : counter.UsesAlone ⟨0, 64⟩ :=
    ⟨.zeroed 0 256, Site.zeroed_fresh .., by decide +kernel, by decide +kernel⟩
  have hok : (allocateAll [stateful, counter] (.zeroed 0 1024)).isOk = true := by decide +kernel
  cases h : allocateAll [stateful, counter] (.zeroed 0 1024) with
  | error e =>
    rw [h] at hok
    cases hok
  | ok s' =>
    obtain ⟨-, htotals, horder⟩ := shared_footprint hpredictable (Site.zeroed_fresh ..) h
    obtain ⟨hhead, htail⟩ := htotals _ (.cons hstateful (.cons hcounter .nil))
    refine ⟨s', rfl, hhead, htail, fun t' ht' => ?_⟩
    obtain ⟨hhead', htail'⟩ := horder _ _ t' (.swap ..) (Site.zeroed_fresh ..) ht'
    exact ⟨hhead'.trans hhead, htail'.trans htail⟩

end Interpreter

end TensorArena
