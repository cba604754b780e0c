import TensorArena.Proofs.Plan.Reserved
import Mathlib.Data.List.Sigma
import Mathlib.Data.List.Sort

/-!
# The order of placement

First fit goes through the buffers by size downward, then first operator, then buffer; buffers that
are equal in all three keep the order of the input. `Sooner` says this of buffers with their
positions, and the entries that `spots` goes through are `Sooner` one after the other. No two entries
tie, so what was placed before an entry is told by the entry alone, and a placed spot by its position.

When no two buffers have one id, the positions decide nothing: the lifetimes are gone through in the
same order however the input is arranged.

There is one order only, so any sort finds it; the last section takes one that can be computed.
-/

namespace TensorArena

/-! ## Keys -/

namespace BufferId

theorem le_total (a b : BufferId) : a.le b = true ∨ b.le a = true := by
  cases a <;> cases b <;> simp [le] <;> omega

theorem le_trans {a b c : BufferId} (hab : a.le b = true) (hbc : b.le c = true) :
    a.le c = true := by
  cases a <;> cases b <;> cases c <;> simp [le] at hab hbc ⊢ <;> omega

theorem le_antisymm {a b : BufferId} (hab : a.le b = true) (hba : b.le a = true) : a = b := by
  cases a <;> cases b <;> simp [le] at hab hba ⊢ <;> omega

end BufferId

namespace FirstFit

/-- Of two buffers with their positions the first is placed before the second: it is larger; or as
large, and needed by an earlier operator; or equal in both, with the lesser id; or equal in all three,
and earlier in the input. -/
def Sooner (a b : Lifetime × Nat) : Prop :=
  b.1.size < a.1.size ∨ b.1.size = a.1.size ∧
    (a.1.first < b.1.first ∨ a.1.first = b.1.first ∧
      (a.1.buffer ≠ b.1.buffer ∧ a.1.buffer.le b.1.buffer = true ∨
        a.1.buffer = b.1.buffer ∧ a.2 < b.2))

/-- The order without the positions, in which equal buffers tie. -/
theorem before_iff {a b : Lifetime} : before a b = true ↔
    b.size < a.size ∨ b.size = a.size ∧
      (a.first < b.first ∨ a.first = b.first ∧ a.buffer.le b.buffer = true) := by
  unfold before
  split
  · simp only [decide_eq_true_eq]
    omega
  · split
    · simp only [decide_eq_true_eq]
      omega
    · constructor
      · exact fun h => .inr ⟨by omega, .inr ⟨by omega, h⟩⟩
      · rintro (h | ⟨-, h | ⟨-, h⟩⟩)
        · omega
        · omega
        · exact h

theorem before_trans (a b c : Lifetime) (hab : before a b = true) (hbc : before b c = true) :
    before a c = true := by
  rw [before_iff] at *
  rcases hab with hab | ⟨hsize, hab | ⟨hfirst, hab⟩⟩ <;>
    rcases hbc with hbc | ⟨hsize', hbc | ⟨hfirst', hbc⟩⟩ <;> try omega
  exact .inr ⟨by omega, .inr ⟨by omega, BufferId.le_trans hab hbc⟩⟩

theorem before_total (a b : Lifetime) : (before a b || before b a) = true := by
  rw [Bool.or_eq_true, before_iff, before_iff]
  rcases BufferId.le_total a.buffer b.buffer with h | h <;> simp only [h, and_true] <;> omega

/-- Buffers tie only when they have one id. -/
theorem buffer_eq_of_before {a b : Lifetime} (hab : before a b = true) (hba : before b a = true) :
    a.buffer = b.buffer := by
  rw [before_iff] at *
  rcases hab with hab | ⟨hsize, hab | ⟨hfirst, hab⟩⟩ <;>
    rcases hba with hba | ⟨hsize', hba | ⟨hfirst', hba⟩⟩ <;> try omega
  exact BufferId.le_antisymm hab hba

theorem Sooner.before {a b : Lifetime × Nat} (h : Sooner a b) : before a.1 b.1 = true := by
  rw [before_iff]
  rcases h with h | ⟨hsize, h | ⟨hfirst, ⟨-, h⟩ | ⟨h, -⟩⟩⟩
  · exact .inl h
  · exact .inr ⟨hsize, .inl h⟩
  · exact .inr ⟨hsize, .inr ⟨hfirst, h⟩⟩
  · refine .inr ⟨hsize, .inr ⟨hfirst, ?_⟩⟩
    rw [h]
    exact (BufferId.le_total _ _).elim id id

/-- Positions decide between buffers that tie. -/
theorem sooner_of_before {a b : Lifetime × Nat} (h : FirstFit.before a.1 b.1 = true)
    (htie : FirstFit.before b.1 a.1 = true → a.2 < b.2) : Sooner a b := by
  rcases before_iff.mp h with h' | ⟨hsize, h' | ⟨hfirst, h'⟩⟩
  · exact .inl h'
  · exact .inr ⟨hsize, .inl h'⟩
  · refine .inr ⟨hsize, .inr ⟨hfirst, ?_⟩⟩
    by_cases heq : a.1.buffer = b.1.buffer
    · refine .inr ⟨heq, htie (before_iff.mpr (.inr ⟨hsize.symm, .inr ⟨hfirst.symm, ?_⟩⟩))⟩
      rw [← heq] at h' ⊢
      exact h'
    · exact .inl ⟨heq, h'⟩

theorem Sooner.asymm {a b : Lifetime × Nat} (hab : Sooner a b) (hba : Sooner b a) : False := by
  have hbuffer := buffer_eq_of_before hab.before hba.before
  unfold Sooner at hab hba
  rw [hbuffer] at hab hba
  simp only [ne_eq, not_true_eq_false, false_and, true_and, false_or] at hab hba
  omega

/-! ## The entries in order -/

/-- The buffers with their positions, in the order in which they are placed. -/
def entries (lifetimes : List Lifetime) : List (Lifetime × Nat) :=
  lifetimes.zipIdx.mergeSort fun a b => before a.1 b.1

theorem spots_eq (lifetimes : List Lifetime) (align : Nat) :
    spots lifetimes align = (entries lifetimes).foldl (put align) [] :=
  rfl

theorem entries_perm (lifetimes : List Lifetime) :
    (entries lifetimes).Perm lifetimes.zipIdx :=
  List.mergeSort_perm ..

theorem mem_entries {lifetimes : List Lifetime} {e : Lifetime × Nat} :
    e ∈ entries lifetimes ↔ lifetimes[e.2]? = some e.1 := by
  rw [(entries_perm lifetimes).mem_iff]
  exact List.mk_mem_zipIdx_iff_getElem?

/-- A stable sort of elements with their positions decides ties by position. -/
theorem pairwise_mergeSort_zipIdx {α : Type} (le : α → α → Bool)
    (trans : ∀ a b c, le a b = true → le b c = true → le a c = true)
    (total : ∀ a b, (le a b || le b a) = true) (as : List α) :
    (as.zipIdx.mergeSort fun a b => le a.1 b.1).Pairwise fun a b =>
      le a.1 b.1 = true ∧ (le b.1 a.1 = true → a.2 < b.2) := by
  rw [← List.mergeSort_zipIdx, List.pairwise_map]
  have hsorted := List.pairwise_mergeSort
    (List.zipIdxLE_trans fun a b c : α × Nat => trans a.1 b.1 c.1)
    (List.zipIdxLE_total fun a b => total a.1 b.1) as.zipIdx.zipIdx
  have hdistinct := List.pairwise_map.mp
    (((List.mergeSort_perm as.zipIdx.zipIdx (List.zipIdxLE fun a b => le a.1 b.1)).map
      Prod.snd).nodup_iff.mpr (List.nodup_zipIdx_map_snd _))
  -- The numbers by which core states stability are the positions that the elements hold.
  have hposition : ∀ e ∈ as.zipIdx.zipIdx.mergeSort (List.zipIdxLE fun a b => le a.1 b.1),
      e.1.2 = e.2 := by
    intro e he
    have hmem := List.mk_mem_zipIdx_iff_getElem?.mp (List.mem_mergeSort.mp he)
    rw [List.getElem?_zipIdx, Option.map_eq_some_iff] at hmem
    obtain ⟨a, -, heq⟩ := hmem
    rw [← heq, Nat.zero_add]
  refine (hsorted.and hdistinct).imp_of_mem fun {a b} ha hb ⟨hle, hne⟩ => ?_
  unfold List.zipIdxLE at hle
  split at hle
  · rename_i hab
    refine ⟨hab, fun hba => ?_⟩
    rw [if_pos hba, decide_eq_true_eq] at hle
    rw [hposition a ha, hposition b hb]
    exact Nat.lt_of_le_of_ne hle hne
  · cases hle

theorem entries_pairwise (lifetimes : List Lifetime) :
    (entries lifetimes).Pairwise Sooner := by
  have h := pairwise_mergeSort_zipIdx before before_trans before_total lifetimes
  exact h.imp fun ⟨hab, htie⟩ => sooner_of_before hab htie

/-! ## Spots and what they are for -/

/-- The buffer and the position that a spot is for. -/
def Spot.entry (s : Spot) : Lifetime × Nat :=
  (s.lifetime, s.index)

/-- The placement that a spot gives. -/
def Spot.placement (s : Spot) : Placement :=
  ⟨s.lifetime, s.start⟩

theorem insert_perm (s : Spot) (spots : List Spot) : (insert s spots).Perm (s :: spots) := by
  induction spots with
  | nil => exact .refl _
  | cons t rest ih =>
    unfold insert
    split
    · exact (ih.cons t).trans (.swap s t rest)
    · exact .refl _

/-- Every entry gets one spot. -/
theorem foldl_put_perm (align : Nat) (entries : List (Lifetime × Nat)) (spots : List Spot) :
    ((entries.foldl (put align) spots).map Spot.entry).Perm (entries ++ spots.map Spot.entry) := by
  induction entries generalizing spots with
  | nil => exact .refl _
  | cons e rest ih =>
    have hput : ((put align spots e).map Spot.entry).Perm (e :: spots.map Spot.entry) :=
      (insert_perm _ spots).map Spot.entry
    exact (ih _).trans ((hput.append_left rest).trans List.perm_middle)

section

variable {lifetimes : List Lifetime} {align : Nat} {s t : Spot}

theorem spots_perm (lifetimes : List Lifetime) (align : Nat) :
    ((spots lifetimes align).map Spot.entry).Perm (entries lifetimes) := by
  have h := foldl_put_perm align (entries lifetimes) []
  rwa [List.map_nil, List.append_nil] at h

theorem entry_mem (hs : s ∈ spots lifetimes align) : s.entry ∈ entries lifetimes :=
  (spots_perm lifetimes align).mem_iff.mp (List.mem_map_of_mem hs)

/-- A placed spot is told by its position. -/
theorem spot_eq_of_index (hs : s ∈ spots lifetimes align) (ht : t ∈ spots lifetimes align)
    (h : s.index = t.index) : s = t := by
  have hperm := ((spots_perm lifetimes align).trans (entries_perm lifetimes)).map Prod.snd
  rw [List.map_map] at hperm
  exact List.inj_on_of_nodup_map (hperm.nodup_iff.mpr (List.nodup_zipIdx_map_snd _)) hs ht h

/-- The offset of a spot is the one its position gets. -/
theorem offsetAt_index (hs : s ∈ spots lifetimes align) :
    offsetAt (spots lifetimes align) s.index = s.start := by
  obtain ⟨t, ht, hindex, -, hoffset⟩ := exists_spot align (mem_entries.mp (entry_mem hs))
  rw [spot_eq_of_index hs ht hindex.symm] at hoffset ⊢
  exact hoffset

theorem placements_eq (lifetimes : List Lifetime) (align : Nat) :
    (plan lifetimes align).placements =
      lifetimes.zipIdx.map fun e => ⟨e.1, offsetAt (spots lifetimes align) e.2⟩ :=
  rfl

theorem getElem?_placements (hs : s ∈ spots lifetimes align) :
    (plan lifetimes align).placements[s.index]? = some s.placement := by
  have hmem : lifetimes[s.index]? = some s.lifetime := mem_entries.mp (entry_mem hs)
  rw [placements_eq, List.getElem?_map, List.getElem?_zipIdx, hmem]
  simp only [Option.map_some, Nat.zero_add, offsetAt_index hs, Spot.placement]

/-- The plan lists the spots in the order of the input. -/
theorem placements_perm (lifetimes : List Lifetime) (align : Nat) :
    (plan lifetimes align).placements.Perm ((spots lifetimes align).map Spot.placement) := by
  have hperm := (spots_perm lifetimes align).trans (entries_perm lifetimes)
  refine (hperm.symm.map _).trans (.of_eq ?_)
  rw [List.map_map]
  refine List.map_congr_left fun s hs => ?_
  exact congrArg (Placement.mk s.lifetime) (offsetAt_index hs)

/-- When a spot was placed, exactly the spots of the entries that come sooner were there. -/
theorem exists_earlier (halign : IsPowerOfTwo align) (hs : s ∈ spots lifetimes align) :
    ∃ earlier, Arranged align earlier ∧
      (∀ t, t ∈ earlier ↔ t ∈ spots lifetimes align ∧ Sooner t.entry s.entry) ∧
      s.start = if 0 < alignUp s.lifetime.size align then
        gap s.lifetime (alignUp s.lifetime.size align) earlier 0 else 0 := by
  obtain ⟨sooner, later, hsplit⟩ := List.append_of_mem (entry_mem hs)
  have hfold : spots lifetimes align =
      later.foldl (put align) (put align (sooner.foldl (put align) []) s.entry) := by
    rw [spots_eq, hsplit, List.foldl_append, List.foldl_cons]
  have hkept : ∀ t ∈ put align (sooner.foldl (put align) []) s.entry,
      t ∈ spots lifetimes align := by
    rw [hfold]
    exact (exists_mem_foldl_put align later _).1
  have hearlier : ∀ t ∈ sooner.foldl (put align) [], t ∈ spots lifetimes align :=
    fun t ht => hkept t (mem_insert.mpr (.inr ht))
  have hordered := entries_pairwise lifetimes
  rw [hsplit, List.pairwise_append, List.pairwise_cons] at hordered
  obtain ⟨-, ⟨hlater, -⟩, hsooner⟩ := hordered
  refine ⟨_, .foldl_put halign sooner ⟨.nil, nofun, nofun, nofun⟩, fun t => ⟨fun ht => ?_, ?_⟩, ?_⟩
  · rcases mem_foldl_put sooner ht with hmem | hmem
    · exact ⟨hearlier t ht, hsooner _ hmem _ List.mem_cons_self⟩
    · cases hmem
  · rintro ⟨ht, hlt⟩
    have hmem := entry_mem ht
    rw [hsplit, List.mem_append, List.mem_cons] at hmem
    rcases hmem with hmem | heq | hmem
    · obtain ⟨u, hu, heq⟩ := (exists_mem_foldl_put align sooner []).2 _ hmem
      rwa [← spot_eq_of_index (hearlier u hu) ht (congrArg Prod.snd heq)]
    · exact absurd (heq ▸ hlt) fun h => h.asymm h
    · exact (hlt.asymm (hlater _ hmem)).elim
  · exact congrArg Spot.start
      (spot_eq_of_index hs (hkept _ (mem_insert.mpr (.inl rfl))) rfl)

end

/-! ## Distinct buffers -/

/-- Without ties the order of the input does not matter. -/
theorem map_fst_entries_of_perm {lifetimes lifetimes' : List Lifetime}
    (h : lifetimes'.Perm lifetimes) (distinct : (lifetimes.map Lifetime.buffer).Nodup) :
    (entries lifetimes').map Prod.fst = (entries lifetimes).map Prod.fst := by
  have hsort : ∀ ls : List Lifetime, (entries ls).map Prod.fst = ls.mergeSort before := by
    intro ls
    rw [entries, List.map_mergeSort (f := Prod.fst) (s := before) fun _ _ _ _ => rfl,
      List.zipIdx_map_fst]
  rw [hsort, hsort]
  refine List.Perm.eq_of_pairwise (fun a b ha hb hab hba => ?_)
    (List.pairwise_mergeSort before_trans before_total _)
    (List.pairwise_mergeSort before_trans before_total _)
    ((List.mergeSort_perm ..).trans (h.trans (List.mergeSort_perm ..).symm))
  exact List.inj_on_of_nodup_map distinct (h.mem_iff.mp (List.mem_mergeSort.mp ha))
    (List.mem_mergeSort.mp hb) (buffer_eq_of_before hab hba)

end FirstFit

/-! ## Plans that can be computed -/

/-- Inserting into its place in a sorted list. -/
theorem orderedInsert_middle {α : Type} {r : α → α → Prop} [DecidableRel r] {a : α} {l₁ l₂ : List α}
    (h₁ : ∀ b ∈ l₁, ¬ r a b) (h₂ : ∀ b ∈ l₂, r a b) :
    (l₁ ++ l₂).orderedInsert r a = l₁ ++ a :: l₂ := by
  induction l₁ with
  | nil =>
    cases l₂ with
    | nil => rfl
    | cons b rest => exact List.orderedInsert_cons_of_le r rest (h₂ b List.mem_cons_self)
  | cons b rest ih =>
    obtain ⟨hb, hrest⟩ := List.forall_mem_cons.mp h₁
    rw [List.cons_append, List.orderedInsert_of_not_le r _ hb, ih hrest, List.cons_append]

/-- Only one arrangement of a list is strictly sorted, and insertion finds it. -/
theorem insertionSort_eq_of_perm {α : Type} {r : α → α → Prop} [DecidableRel r]
    (asymm : ∀ a b, r a b → ¬ r b a) {l sorted : List α} (h : l.Perm sorted)
    (hsorted : sorted.Pairwise r) : l.insertionSort r = sorted := by
  induction l generalizing sorted with
  | nil => exact (List.nil_perm.mp h).symm
  | cons a rest ih =>
    obtain ⟨l₁, l₂, rfl⟩ := List.append_of_mem (h.subset List.mem_cons_self)
    have hrest : rest.Perm (l₁ ++ l₂) := (List.perm_cons a).mp (h.trans List.perm_middle)
    rw [List.pairwise_append, List.pairwise_cons] at hsorted
    obtain ⟨hsorted₁, ⟨hfirst, hsorted₂⟩, hcross⟩ := hsorted
    rw [List.insertionSort_cons, ih hrest (List.pairwise_append.mpr ⟨hsorted₁, hsorted₂,
      fun b hb c hc => hcross b hb c (List.mem_cons_of_mem _ hc)⟩)]
    exact orderedInsert_middle (fun b hb => asymm b a (hcross b hb a List.mem_cons_self)) hfirst

namespace FirstFit

instance : DecidableRel Sooner :=
  fun _ _ => inferInstanceAs (Decidable (_ ∨ _ ∧ (_ ∨ _ ∧ (_ ∧ _ ∨ _ ∧ _))))

/-- The plan by a sort that recurses on its list, so that plans can be computed by `decide`. -/
def planByInsertion (lifetimes : List Lifetime) (align : Nat) : Plan :=
  let placed := (lifetimes.zipIdx.insertionSort Sooner).foldl (put align) []
  { strategy := name
    placements := lifetimes.zipIdx.map fun (l, index) => ⟨l, offsetAt placed index⟩
    peak := (placed.map (·.stop)).foldl max 0 }

/-- Places the buffers by such a plan. -/
def placeByInsertion (lifetimes : List Lifetime) (align capacity : Nat) : Except PlanError Plan := do
  checkLifetimes lifetimes align
  (planByInsertion lifetimes align).within capacity

theorem place_eq_placeByInsertion : place = placeByInsertion := by
  funext lifetimes align capacity
  have hentries : entries lifetimes = lifetimes.zipIdx.insertionSort Sooner :=
    (insertionSort_eq_of_perm (fun _ _ => Sooner.asymm) (entries_perm lifetimes).symm
      (entries_pairwise lifetimes)).symm
  have hplan : plan lifetimes align = planByInsertion lifetimes align := by
    rw [planByInsertion, ← hentries]
    rfl
  rw [place, placeByInsertion, hplan]

end FirstFit

theorem Strategy.firstFit_eq : firstFit =
    { name := FirstFit.name, place := FirstFit.placeByInsertion, announces := true } := by
  rw [firstFit, FirstFit.place_eq_placeByInsertion]

end TensorArena
