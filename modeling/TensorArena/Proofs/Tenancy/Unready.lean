import TensorArena.Proofs.Footprint.Alone
import TensorArena.Proofs.Graph.Accepted
import TensorArena.Proofs.Plan.Lowest
import TensorArena.Proofs.Tenancy.Ready

/-!
# Allocated interpreters that are not ready

An allocated interpreter is ready under a strategy that keeps its contract, and as long as 32-bit words
number its scratch rows. Without either of these, allocating can succeed and binding fail.

A plan is taken from the strategy as it is: one that puts all buffers at the start of their block is
followed, and the first operator with two operands in the arena claims the same bytes for both.

The numbers of scratch rows are cut off to 32 bits. In a row of `n` operators with one scratch block
each and one operator behind them, the scratch rows of the last one come after `n` others. When `n` is
a multiple of 2 ^ 32, it gets the number 0 for the first of them, and finds the rows of the first two
operators there. These are never alive together, so first fit gave them the same bytes, and the last
operator claims these bytes twice.
-/

namespace TensorArena

variable {σ π : Type}

/-! ## Kernels that ask for scratch blocks -/

/-- Asks for scratch blocks of these sizes. -/
def Preparation.ofSizes : List Nat → Preparation σ
  | [] => .done
  | size :: rest => .scratch size (fun _ => ofSizes rest) .fail

/-- The requests for scratch blocks of these sizes. -/
def Requests.ofSizes : List Nat → Requests
  | [] => .done
  | size :: rest => .scratch size (ofSizes rest)

namespace Preparation

theorem makes_ofSizes (sizes : List Nat) :
    (ofSizes sizes : Preparation σ).Makes (.ofSizes sizes) := by
  induction sizes with
  | nil => exact .done
  | cons size rest ih => exact .scratch (fun _ => ih) .fail

theorem run_ofSizes {sizes : List Nat} {g : Grant} (h : g.scratch.length + sizes.length ≤ maxScratch)
    (s : Site σ π) :
    (ofSizes sizes).run g s = (.ok { g with scratch := g.scratch ++ sizes }, s) := by
  induction sizes generalizing g with
  | nil =>
    rw [List.append_nil]
    rfl
  | cons size rest ih =>
    rw [List.length_cons] at h
    rw [ofSizes, run, if_neg (by omega), ih]
    · rw [List.append_assoc]
      rfl
    · rw [List.length_append, List.length_singleton]
      omega

end Preparation

theorem Requests.need?_ofSizes {sizes : List Nat} {n : Need}
    (h : n.scratch.length + sizes.length ≤ maxScratch) :
    (ofSizes sizes).need? n = some { n with scratch := n.scratch ++ sizes } := by
  induction sizes generalizing n with
  | nil =>
    rw [List.append_nil]
    rfl
  | cons size rest ih =>
    rw [List.length_cons] at h
    rw [ofSizes, need?, if_neg (by omega), ih]
    · rw [List.append_assoc]
      rfl
    · rw [List.length_append, List.length_singleton]
      omega

/-- Asks for the scratch blocks that an operator should have, and does nothing with them. -/
def Kernel.idle (sizes : Operator → List Nat) : Kernel σ where
  prepare s := .ofSizes (sizes s.operator)
  invoke := pure ()

namespace Pass

/-- Kernels that ask for scratch blocks only are granted what they ask for. -/
theorem prepared_idle {sizes : Operator → List Nat} (hsizes : ∀ op, (sizes op).length ≤ maxScratch)
    (g : Graph) (ops : List Operator) (s : Site σ π) :
    (prepared g (ops.zip (List.replicate ops.length (.idle sizes))) s).map (·.1) =
      ops.map fun op => { scratch := sizes op } := by
  induction ops with
  | nil => rfl
  | cons op rest ih =>
    have hrun : ((Kernel.idle sizes).prepare (.of g op)).run {} s = (.ok { scratch := sizes op }, s) :=
      Preparation.run_ofSizes (Nat.le_trans (Nat.le_of_eq (Nat.zero_add _)) (hsizes op)) s
    rw [List.length_cons, List.replicate_succ, List.zip_cons_cons, prepared, hrun, List.map_cons, ih,
      List.map_cons]

theorem map_size_grantLifetimes (index : Nat) (grants : List Grant) :
    (grantLifetimes index grants).map Lifetime.size = grants.flatMap Grant.scratch := by
  induction grants generalizing index with
  | nil => rfl
  | cons grant rest ih =>
    rw [grantLifetimes, List.map_append, List.map_map, ih, List.flatMap_cons]
    congr 1
    exact List.zipIdx_map_fst ..

/-- A scratch block is alive at its operator only. -/
theorem mem_grantLifetimes {grants : List Grant} {index : Nat} {l : Lifetime}
    (h : l ∈ grantLifetimes index grants) : index ≤ l.first ∧ l.first = l.last := by
  induction grants generalizing index with
  | nil => cases h
  | cons grant rest ih =>
    rcases List.mem_append.mp h with h | h
    · obtain ⟨p, -, rfl⟩ := List.mem_map.mp h
      exact ⟨Nat.le_refl _, rfl⟩
    · obtain ⟨hle, heq⟩ := ih h
      exact ⟨by omega, heq⟩

/-- Where no kernel is granted two scratch blocks that hold bytes, no two such blocks are ever alive
together. -/
theorem grantLifetimes_alone {grants : List Grant}
    (h : ∀ grant ∈ grants, grant.scratch.Pairwise fun size size' => size = 0 ∨ size' = 0)
    (index : Nat) :
    (grantLifetimes index grants).Pairwise fun l l' => l.Overlaps l' → l.size = 0 ∨ l'.size = 0 := by
  induction grants generalizing index with
  | nil => exact .nil
  | cons grant rest ih =>
    obtain ⟨hgrant, hrest⟩ := List.forall_mem_cons.mp h
    refine List.pairwise_append.mpr ⟨?_, ih hrest _, fun l hl l' hl' hover => ?_⟩
    · rw [List.pairwise_map]
      rw [← List.zipIdx_map_fst 0 grant.scratch, List.pairwise_map] at hgrant
      refine hgrant.imp ?_
      rintro ⟨size, j⟩ ⟨size', j'⟩ hzero -
      exact hzero
    · obtain ⟨p, -, rfl⟩ := List.mem_map.mp hl
      have hlater := (mem_grantLifetimes hl').1
      have hlast := hover.2
      simp only [Lifetime.scratch] at hlast
      omega

end Pass

/-! ## Operators without operands -/

/-- An operator without operands. -/
def Operator.bare (name : String) : Operator :=
  ⟨name, .noOp, [], []⟩

/-- Operators without tensors: `n` of them, and one behind them. -/
def Graph.row (n : Nat) : Graph where
  name := "row"
  tensors := []
  operators := List.replicate n (.bare "single") ++ [.bare "double"]
  inputs := []
  outputs := []

/-- Each operator has a block of 16 bytes, and the one behind has an empty block besides. -/
def rowSizes (op : Operator) : List Nat :=
  if op.name = "double" then [16, 0] else [16]

theorem length_rowSizes_le (op : Operator) : (rowSizes op).length ≤ maxScratch := by
  unfold rowSizes
  split
  · decide
  · decide

namespace Graph

theorem mem_row {n : Nat} {op : Operator} (h : op ∈ (row n).operators) :
    op = .bare "single" ∨ op = .bare "double" := by
  rcases List.mem_append.mp h with h | h
  · exact .inl (List.eq_of_mem_replicate h)
  · exact .inr (List.mem_singleton.mp h)

theorem length_row (n : Nat) : (row n).operators.length = n + 1 := by
  simp [row]

theorem check_row (n : Nat) : (row n).check = .ok () := by
  have hops : (row n).checkOperators [] (row n).operators =
      .ok ([] ++ (row n).operators.flatMap Operator.outputIds) := by
    refine checkOperators_of fun k op hk => ?_
    rcases mem_row (List.mem_of_getElem? hk) with rfl | rfl
    · rfl
    · rfl
  unfold check
  rw [hops]
  rfl

end Graph

/-- A row of operators is a graph that is accepted. -/
def CheckedGraph.row (n : Nat) : CheckedGraph :=
  { Graph.row n with checked := Graph.check_row n }

theorem Graph.row_checked (n : Nat) : (Graph.row n).Checked :=
  (CheckedGraph.row n).rules

namespace Demand

/-- The demand is at most so many bytes at either end, and fits every tail. -/
structure AtMost (d : Demand) (head tail : Nat) : Prop where
  head_le : d.head ≤ head
  tail_le : d.tail ≤ tail
  fits : ∀ t, d.fits t

theorem AtMost.andThen {d d' : Demand} {head tail tail' : Nat} (h : d.AtMost head tail)
    (h' : d'.AtMost head tail') : (d.andThen d').AtMost head (tail + tail') where
  head_le := Nat.max_le.mpr ⟨h.head_le, h'.head_le⟩
  tail_le := Nat.add_le_add h.tail_le h'.tail_le
  fits t := ⟨h.fits t, h'.fits _⟩

theorem none_atMost (head : Nat) : none.AtMost head 0 :=
  ⟨Nat.zero_le _, Nat.le_refl _, fun _ => trivial⟩

theorem block_atMost (head : Nat) {size bound : Nat} (hle : size ≤ bound)
    (hdvd : arenaAlignment ∣ bound) : (block size).AtMost head bound :=
  ⟨Nat.zero_le _, alignUp_le_of_dvd (by decide) hdvd hle, fun _ => trivial⟩

theorem all_none_atMost (head : Nat) {ds : List Demand} (h : ∀ d ∈ ds, d = none) :
    (all ds).AtMost head 0 := by
  induction ds with
  | nil => exact none_atMost head
  | cons d rest ih =>
    obtain ⟨rfl, hrest⟩ := List.forall_mem_cons.mp h
    exact (none_atMost head).andThen (ih hrest)

end Demand

/-! ## Allocating them -/

/-- What the kernels of a row are granted. -/
def rowGrants (n : Nat) : List Grant :=
  (Graph.row n).operators.map fun op => { scratch := rowSizes op }

theorem rowGrants_eq (n : Nat) :
    rowGrants n = List.replicate n { scratch := [16] } ++ [{ scratch := [16, 0] }] := by
  simp [rowGrants, Graph.row, rowSizes, Operator.bare]

/-- What the kernels of a row ask for. -/
def rowRequests (n : Nat) : List Requests :=
  (Graph.row n).operators.map fun op => .ofSizes (rowSizes op)

theorem need?_row (op : Operator) :
    (Requests.ofSizes (rowSizes op)).need? {} = some { scratch := rowSizes op } :=
  Requests.need?_ofSizes (Nat.le_trans (Nat.le_of_eq (Nat.zero_add _)) (length_rowSizes_le op))

theorem lifetimes_rowRequests (n : Nat) :
    Requests.lifetimes 0 (rowRequests n) = Pass.grantLifetimes 0 (rowGrants n) := by
  have hsizes : ∀ op, (Requests.ofSizes (rowSizes op)).scratchSizes = rowSizes op := by
    intro op
    rw [Requests.scratchSizes, need?_row]
  rw [Requests.lifetimes, rowRequests, rowGrants, List.map_map]
  congr 1
  exact List.map_congr_left fun op _ => by rw [Function.comp, hsizes]

theorem rowLifetimes_alone (n : Nat) : (Pass.grantLifetimes 0 (rowGrants n)).Pairwise
    fun l l' => l.Overlaps l' → l.size = 0 ∨ l'.size = 0 := by
  refine Pass.grantLifetimes_alone (List.forall_mem_map.mpr fun op _ => ?_) 0
  unfold rowSizes
  split
  · decide
  · decide

/-- The sizes of all scratch blocks. -/
theorem map_size_rowLifetimes (n : Nat) :
    (Pass.grantLifetimes 0 (rowGrants n)).map Lifetime.size = List.replicate (n + 1) 16 ++ [0] := by
  rw [Pass.map_size_grantLifetimes, rowGrants_eq, List.flatMap_append, List.replicate_succ']
  simp [List.flatMap_replicate]

theorem length_rowLifetimes (n : Nat) : (Pass.grantLifetimes 0 (rowGrants n)).length = n + 2 := by
  rw [← List.length_map (f := Lifetime.size), map_size_rowLifetimes]
  simp

theorem size_le_of_mem_rowLifetimes {n : Nat} {l : Lifetime}
    (h : l ∈ Pass.grantLifetimes 0 (rowGrants n)) : l.size ≤ 16 := by
  have hmem : l.size ∈ List.replicate (n + 1) 16 ++ [0] := by
    rw [← map_size_rowLifetimes]
    exact List.mem_map_of_mem h
  rcases List.mem_append.mp hmem with hmem | hmem
  · exact Nat.le_of_eq (List.eq_of_mem_replicate hmem)
  · rw [List.mem_singleton.mp hmem]
    exact Nat.zero_le _

/-- Without a limit first fit gives all buffers the same bytes, where no two that hold bytes are ever
alive together. -/
theorem Strategy.unlimited_of_alone (lifetimes : List Lifetime) (bound : Nat)
    (hordered : ∀ l ∈ lifetimes, l.first ≤ l.last)
    (halone : lifetimes.Pairwise fun l l' => l.Overlaps l' → l.size = 0 ∨ l'.size = 0)
    (hbound : ∀ l ∈ lifetimes, alignUp l.size arenaAlignment ≤ bound) (hle : bound ≤ Word.max) :
    ∃ p, firstFit.unlimited lifetimes = .ok p ∧ p.peak ≤ bound ∧ ∀ q ∈ p.placements, q.offset = 0 :=
  firstFit_of_alone (by decide) hordered halone hbound hle

namespace Demand

theorem activations_atMost : (activations .firstFit []).AtMost 16 0 := by
  obtain ⟨p, hp, hpeak, -⟩ := Strategy.unlimited_of_alone [] 0 nofun .nil nofun (Nat.zero_le _)
  have hempty : p.placements = [] :=
    List.map_eq_nil_iff.mp (Strategy.firstFit_uniform.sound _ _ _ _ hp).lifetimes_eq
  rw [activations, hp]
  refine ⟨Nat.zero_le _, (block_atMost 16 hpeak (Nat.dvd_zero _)).tail_le, fun _ q hq => ?_⟩
  rw [hempty] at hq
  cases hq

/-- All scratch blocks of a row get the same 16 bytes. -/
theorem scratch_row_atMost (n : Nat) :
    (scratch .firstFit (Pass.grantLifetimes 0 (rowGrants n))).AtMost 16 ((n + 1) * 16) := by
  obtain ⟨p, hp, hpeak, hoffset⟩ := Strategy.unlimited_of_alone _ 16
    (fun l hl => Nat.le_of_eq (Pass.mem_grantLifetimes hl).2) (rowLifetimes_alone n)
    (fun l hl => alignUp_le_of_dvd (by decide) (by decide) (size_le_of_mem_rowLifetimes hl))
    (by decide)
  have hlifetimes := (Strategy.firstFit_uniform.sound _ _ _ _ hp).lifetimes_eq
  have hblock : (scratchBlock .firstFit (Pass.grantLifetimes 0 (rowGrants n))).AtMost 16 0 := by
    rw [scratchBlock, hp]
    refine ⟨hpeak, Nat.le_refl _, fun _ q hq => ?_⟩
    have hsize : q.lifetime.size ≤ 16 :=
      size_le_of_mem_rowLifetimes (hlifetimes ▸ List.mem_map_of_mem hq)
    have hmax : 16 ≤ Word.max32 := by decide
    rw [Placement.stop, hoffset q hq]
    omega
  have hne : ¬ (Pass.grantLifetimes 0 (rowGrants n)).isEmpty = true := by
    rw [List.isEmpty_iff_length_eq_zero, length_rowLifetimes]
    omega
  rw [scratch, if_neg hne, length_rowLifetimes]
  have htable : (n + 2) * Span.layout.size ≤ (n + 1) * 16 := by
    rw [show Span.layout.size = 8 from rfl]
    omega
  exact (block_atMost 16 htable (Nat.dvd_mul_left ..)).andThen hblock

theorem commit_row_atMost (n : Nat) :
    (commit (Graph.row n) .firstFit (rowRequests n)).AtMost 16 (32 * (n + 1)) := by
  have hrequests : ∀ d ∈ (rowRequests n).map Requests.demand, d = none := by
    refine List.forall_mem_map.mpr (List.forall_mem_map.mpr fun op _ => ?_)
    rw [Requests.demand, need?_row]
    rfl
  have hall : ((Graph.row n).operators.length * OpRow.layout.size) = (n + 1) * 16 := by
    rw [Graph.length_row]
    rfl
  have hdemand := (block_atMost 16 (Nat.le_of_eq hall) (Nat.dvd_mul_left ..)).andThen <|
    (all_none_atMost 16 hrequests).andThen <|
    (block_atMost 16 (Nat.le_refl 0) (Nat.dvd_zero _)).andThen <|
    (none_atMost 16).andThen <|
    activations_atMost.andThen (scratch_row_atMost n)
  rw [commit, lifetimes_rowRequests]
  exact { hdemand with tail_le := Nat.le_trans hdemand.tail_le (by omega) }

end Demand

/-- What a row of operators owns once it is allocated: its scratch blocks all lie in the first 16
bytes. -/
structure Allotment.Crowded (a : Allotment) (n : Nat) (tables : Tables) (m : Memory) : Prop where
  fits : a.Fits (Graph.row n) tables
  settled : a.Settled tables m
  start_le : a.stages.start ≤ m.size
  grants_eq : a.grants = rowGrants n
  stop_le : ∀ span ∈ a.scratch, span.range.stop ≤ 16

/-- The scratch blocks of a pass lie below the watermark that it leaves. -/
theorem Pass.Committed.scratch_stop_le {g : Graph} {kernels : List (Kernel σ)} {strategy : Strategy}
    {s s' : Site σ π} {tables : Tables} {a : Allotment}
    (h : Committed g kernels strategy s s' tables a) {span : Span} (hspan : span ∈ a.scratch) :
    span.range.stop ≤ s'.arena.watermark := by
  obtain ⟨-, -, hblock, -, hstop⟩ := h.fits.scratch_range hspan
  have hgranted : ⟨.head, a.workspace, arenaAlignment⟩ ∈ s'.granted := by
    rw [h.since.granted_eq]
    exact List.mem_append_left _ (h.blocks_eq ▸ hblock)
  have hheld : a.workspace.stop ≤ s'.arena.watermark := h.since.sound.holds _ hgranted
  exact Nat.le_trans hstop hheld

namespace Interpreter

/-- A row of operators as it is created. -/
def ofRow (n : Nat) : Interpreter σ π where
  graph := .row n
  kernels := List.replicate (Graph.row n).operators.length (.idle rowSizes)

/-- A resolver that knows one kernel makes it for every operator. -/
theorem resolve_always (k : Kernel σ) {ops : List Operator}
    (h : ∀ op ∈ ops, max op.inputs.length op.outputs.length ≤ maxOperands) (made : List (Kernel σ))
    (outside : σ) : resolve (fun _ => some (.always k)) made ops outside =
      (.ok (made ++ List.replicate ops.length k), outside) := by
  induction ops generalizing made with
  | nil =>
    rw [List.length_nil, List.replicate_zero, List.append_nil]
    rfl
  | cons op rest ih =>
    obtain ⟨hop, hrest⟩ := List.forall_mem_cons.mp h
    have hfactory : factoryOf (fun _ => some (.always k)) op = .ok (.always k) :=
      if_neg (Nat.not_lt_of_le hop)
    rw [resolve, hfactory]
    dsimp only [Factory.always]
    rw [ih hrest, List.append_assoc]
    rfl

theorem create_row (n : Nat) (s : Site σ π) :
    ∃ s', create (.row n) (fun _ => some (.always (.idle rowSizes))) s = (.ok (ofRow n), s') ∧
      s.Quiet s' := by
  have hlimit : ∀ op ∈ (CheckedGraph.row n).operators,
      max op.inputs.length op.outputs.length ≤ maxOperands := by
    intro op hop
    rcases Graph.mem_row hop with rfl | rfl
    · exact Nat.zero_le _
    · exact Nat.zero_le _
  unfold create
  rw [resolve_always _ hlimit]
  exact ⟨_, rfl, ⟨rfl, rfl, rfl, rfl⟩⟩

theorem forall₂_idle (g : Graph) (ops : List Operator) :
    List.Forall₂ (fun p r => (p.2.prepare (.of g p.1)).Makes r)
      (ops.zip (List.replicate ops.length (.idle rowSizes : Kernel σ)))
      (ops.map fun op => .ofSizes (rowSizes op)) := by
  induction ops with
  | nil => exact .nil
  | cons op rest ih => exact .cons (Preparation.makes_ofSizes _) ih

theorem ofRow_predictable (n : Nat) : (ofRow n : Interpreter σ π).Predictable where
  created := rfl
  kernels_length := List.length_replicate
  uniform := Strategy.firstFit_uniform
  settled p hp := by
    obtain ⟨-, hkernel⟩ := List.of_mem_zip hp
    rw [List.eq_of_mem_replicate hkernel]
    exact ⟨_, Preparation.makes_ofSizes _⟩

theorem allocate_row {n : Nat} {s : Site σ π} (hs : s.Fresh)
    (hroom : 32 * (n + 2) ≤ s.store.capacity) :
    ∃ (tables : Tables) (a : Allotment) (s' : Site σ π), (ofRow n).allocate s =
        (.ok (), { ofRow n with state := .allocated tables }, s') ∧
      s'.hold = .free ∧ a.Crowded n tables s'.memory := by
  have hdemand := Demand.commit_row_atMost n
  have hmet : (Demand.commit (Graph.row n) .firstFit (rowRequests n)).Met s.arena := by
    refine (hs.met_iff _).mpr ⟨hdemand.fits _, ?_⟩
    have := hdemand.head_le
    have := hdemand.tail_le
    omega
  have hpredictable := ofRow_predictable (σ := σ) (π := π) n
  obtain ⟨hok, -, hmoved⟩ := (allocate_exact hpredictable (forall₂_idle _ _) hs.isOpen rfl).resolve_right
    fun hfailed => hfailed.2 hmet
  have hallocating := (ofRow n).allocating hs.isOpen.sound hpredictable.kernels_length
    hpredictable.uniform.sound
  generalize (ofRow n).allocate s = outcome at hok hmoved hallocating
  obtain ⟨answer, i, s'⟩ := outcome
  dsimp only at hok hmoved hallocating
  cases hallocating with
  | stayed hstayed => exact absurd rfl (hstayed hok)
  | failed _ _ => cases hok
  | @done tables a s₁ _ _ _ hcommitted hquiet =>
    have hsince := hcommitted.since
    have hlodged := lodged_of_committed hs.isOpen.sound hcommitted hquiet
    refine ⟨tables, a, s', rfl, ?_, hlodged.fits, hlodged.settled, hlodged.start_le, ?_, ?_⟩
    · rw [hquiet.hold_eq, hsince.hold_eq, hs.free]
    · exact hcommitted.grants_eq.trans (Pass.prepared_idle length_rowSizes_le _ _ _)
    · intro span hspan
      have harena : s'.arena = s₁.arena := congrArg Store.arena hquiet.store_eq
      refine Nat.le_trans (hcommitted.scratch_stop_le hspan) ?_
      rw [← harena, hmoved.watermark_eq, hs.watermark_eq, Nat.zero_max]
      exact hdemand.head_le

end Interpreter

/-! ## Running them -/

/-- The same bytes cannot be handed out twice. -/
theorem Memory.split_twice {m : Memory} (h : 16 ≤ m.size) :
    m.split 3 [⟨0, 16⟩, ⟨0, 16⟩, .empty] = .error (.overlappingRegions 0) := by
  have hfind : [⟨0, 16⟩, ⟨0, 16⟩, ByteRange.empty].find? (fun r => decide (m.size < r.stop)) = none := by
    simp [ByteRange.stop, ByteRange.empty]
    omega
  unfold split
  rw [hfind]
  rfl

namespace Allotment.Crowded

variable {a : Allotment} {n : Nat} {tables : Tables} {m : Memory}

/-- The scratch blocks that hold bytes all have the same ones. -/
theorem exists_span (h : a.Crowded n tables m) {j : Nat} (hj : j ≤ n) :
    ∃ span, a.scratch[j]? = some span ∧ span.range = ⟨0, 16⟩ := by
  have hsizes : a.lifetimes.map Lifetime.size = List.replicate (n + 1) 16 ++ [0] := by
    rw [lifetimes, h.grants_eq, map_size_rowLifetimes]
  have hsize : (a.lifetimes.map Lifetime.size)[j]? = some 16 := by
    rw [hsizes, List.getElem?_append_left (by simp; omega), List.getElem?_replicate,
      if_pos (by omega)]
  rw [List.getElem?_map] at hsize
  obtain ⟨l, hl, hsize⟩ := Option.map_eq_some_iff.mp hsize
  have hscratch := h.fits.scratch
  have hlt : j < a.scratch.length := by
    rw [hscratch.length_eq]
    exact (List.getElem?_eq_some_iff.mp hl).1
  have hspan := List.getElem?_eq_getElem hlt
  have hzip : (a.lifetimes.zip a.scratch)[j]? = some (l, a.scratch[j]) :=
    List.getElem?_zip_eq_some.mpr ⟨hl, hspan⟩
  have hlength : a.scratch[j].range.length = l.size :=
    (hscratch.each _ (List.mem_of_getElem? hzip)).1
  have hstop := h.stop_le _ (List.mem_of_getElem? hspan)
  refine ⟨_, hspan, ?_⟩
  rw [ByteRange.stop, hlength, hsize] at hstop
  have hoffset : a.scratch[j].range.offset = 0 := by omega
  rw [← hoffset, ← hsize, ← hlength]

theorem grant_single (h : a.Crowded n tables m) {k : Nat} (hk : k < n) :
    a.grants[k]? = some { scratch := [16] } := by
  rw [h.grants_eq, rowGrants_eq, List.getElem?_append_left (by simpa using hk),
    List.getElem?_replicate, if_pos hk]

theorem grant_double (h : a.Crowded n tables m) : a.grants[n]? = some { scratch := [16, 0] } := by
  rw [h.grants_eq, rowGrants_eq, List.getElem?_append_right (by simp)]
  simp

/-- The operators before the last one are bound: each claims one block. -/
theorem bound_single {s : Site σ π} (h : a.Crowded n tables s.memory) {k : Nat} (hk : k < n)
    {op : Operator} (hop : (Graph.row n).operators[k]? = some op) (context : Option Int) :
    ∃ o, s.bound (Graph.row n) op tables k context = .ok o := by
  have hg := h.grant_single hk
  rw [h.settled.bound_eq hg]
  obtain ⟨hinputs, houtputs⟩ : op.inputs = [] ∧ op.outputs = [] := by
    rcases Graph.mem_row (List.mem_of_getElem? hop) with rfl | rfl
    · exact ⟨rfl, rfl⟩
    · exact ⟨rfl, rfl⟩
  have hin : op.inputs.length ≤ maxOperands := by
    rw [hinputs]
    exact Nat.zero_le _
  have hout : op.outputs.length ≤ maxOperands := by
    rw [houtputs]
    exact Nat.zero_le _
  refine ⟨_, bind_of_apart (Graph.row_checked n) h.fits h.settled h.start_le hop hg hin hout ?_
    context⟩
  obtain ⟨span, hpieces⟩ := List.length_eq_one_iff.mp (h.fits.length_pieces hg)
  rw [claims_eq h.fits hg, hinputs, houtputs, hpieces, h.fits.userRange_rowOf hg]
  exact List.pairwise_pair.mpr (ByteRange.apart_empty _)

/-- When its first row gets the number 0, the last operator lists the rows of the first two. -/
theorem pieces_double (h : a.Crowded n tables m) (hn : 0 < n) (hwrap : n % 2 ^ 32 = 0) :
    (a.pieces (a.rowOf n { scratch := [16, 0] })).map Span.range = [⟨0, 16⟩, ⟨0, 16⟩] := by
  have hbefore : Pass.scratchBefore a.grants n = n := by
    rw [Pass.scratchBefore, h.grants_eq, rowGrants_eq, List.take_left' List.length_replicate,
      List.map_replicate, show total = List.sum from rfl, List.sum_replicate]
    exact Nat.mul_one n
  have hfirst : (a.rowOf n { scratch := [16, 0] }).scratchFirst.toNat = 0 := by
    simp only [rowOf, hbefore, UInt32.toNat_ofNat']
    exact hwrap
  obtain ⟨s₀, h₀, hrange₀⟩ := h.exists_span (Nat.zero_le n)
  obtain ⟨s₁, h₁, hrange₁⟩ := h.exists_span hn
  have htwo : a.scratch.take 2 = [s₀, s₁] := by
    simp [List.take_add_one, h₀, h₁]
  rw [pieces, hfirst, List.drop_zero, show (a.rowOf n _).scratchCount.toNat = 2 from rfl, htwo,
    List.map_cons, List.map_cons, hrange₀, hrange₁]
  rfl

/-- Then it is not bound. -/
theorem bound_double {s : Site σ π} (h : a.Crowded n tables s.memory) (hn : 0 < n)
    (hwrap : n % 2 ^ 32 = 0) {op : Operator} (hop : (Graph.row n).operators[n]? = some op)
    (context : Option Int) :
    s.bound (Graph.row n) op tables n context = .error (.memory (.overlappingRegions 0)) := by
  have hg := h.grant_double
  obtain rfl : op = .bare "double" := by
    rw [Graph.row, List.getElem?_append_right (by simp)] at hop
    simpa using hop.symm
  have hclaims : (a.sources (Graph.row n) (.bare "double") (a.rowOf n { scratch := [16, 0] })).claims
      (.bare "double") (a.rowOf n { scratch := [16, 0] }) = [⟨0, 16⟩, ⟨0, 16⟩, .empty] := by
    refine (claims_eq h.fits hg).trans ?_
    rw [h.pieces_double hn hwrap, h.fits.userRange_rowOf hg]
    rfl
  have hsize : 16 ≤ s.memory.size := by
    refine Nat.le_trans (claims_stop_le h.fits hop hg (r := ⟨0, 16⟩) ?_) h.start_le
    rw [claims, hclaims]
    exact List.mem_cons_self
  rw [h.settled.bound_eq hg]
  unfold Memory.bind
  rw [sources_eq (Graph.row_checked n) h.fits h.settled hop hg]
  dsimp only [Bind.bind, Except.bind]
  rw [hclaims]
  simp only [List.length_cons, List.length_nil, Memory.split_twice hsize]
  rfl

theorem wrote {s s' : Site σ π} (h : a.Crowded n tables s.memory) (hw : s.Wrote a.Reach s') :
    a.Crowded n tables s'.memory :=
  { h with
    settled := h.settled.wrote h.fits rfl hw
    start_le := hw.size_eq ▸ h.start_le }

/-- An operator before the last one runs. -/
theorem runOperator_single {s : Site σ π} (h : a.Crowded n tables s.memory) {k : Nat} (hk : k < n)
    {op : Operator} (hop : (Graph.row n).operators[k]? = some op) (profiler : Option (Profiler π))
    (context : Option Int) :
    (Pass.runOperator (Graph.row n) profiler context tables k op (.idle rowSizes)).Runs s
      (fun _ s' => s.Wrote a.Reach s') (fun _ _ => False) := by
  obtain ⟨o, ho⟩ := h.bound_single hk hop context
  refine (Pass.runOperator_runs s (Graph.row n) profiler context tables k op (.idle rowSizes)).mono
    ?_ ?_
  · rintro - s' ⟨o', hbound, hran⟩
    exact wrote_of_ran (Graph.row_checked n) h.fits h.settled hop hbound hran
  · rintro e s' (⟨hbound, -⟩ | ⟨o', cause, -, -, hran⟩)
    · cases ho.symm.trans hbound
    · cases hran.outcome_eq

/-- The last operator fails, for it is not bound. -/
theorem runOperator_double {s : Site σ π} (h : a.Crowded n tables s.memory) (hn : 0 < n)
    (hwrap : n % 2 ^ 32 = 0) {op : Operator} (hop : (Graph.row n).operators[n]? = some op)
    (k : Kernel σ) (profiler : Option (Profiler π)) (context : Option Int) :
    (Pass.runOperator (Graph.row n) profiler context tables n op k).Runs s
      (fun _ _ => False) (fun e _ => e = .memory (.overlappingRegions 0)) := by
  have hunbound := h.bound_double hn hwrap hop context
  refine (Pass.runOperator_runs s (Graph.row n) profiler context tables n op k).mono ?_ ?_
  · rintro - s' ⟨o, hbound, -⟩
    cases hunbound.symm.trans hbound
  · rintro e s' (⟨hbound, -⟩ | ⟨o, cause, hbound, -⟩)
    · exact Except.error.inj (hbound.symm.trans hunbound)
    · cases hunbound.symm.trans hbound

/-- Running the row stops at its last operator, which is not bound. -/
theorem runAll_stops {s : Site σ π} (h : a.Crowded n tables s.memory) (hn : 0 < n)
    (hwrap : n % 2 ^ 32 = 0) (profiler : Option (Profiler π)) (context : Option Int) :
    (Pass.runAll (Graph.row n) profiler context tables ((Graph.row n).operators.zip
      (List.replicate (Graph.row n).operators.length (.idle rowSizes : Kernel σ))) 0).Runs s
      (fun _ _ => False) (fun e _ => e = .memory (.overlappingRegions 0)) := by
  refine (Pass.runAll_runs (fun j s' => j ≤ n ∧ s.Wrote a.Reach s') (fun j op k s' hj hinv => ?_)
    ⟨Nat.zero_le n, .refl s⟩).mono ?_ fun _ _ he => he
  · rw [Nat.zero_add] at hinv ⊢
    obtain ⟨hle, hw⟩ := hinv
    obtain ⟨hop, hkernel⟩ := List.getElem?_zip_eq_some.mp hj
    obtain rfl := List.eq_of_mem_replicate (List.mem_of_getElem? hkernel)
    have h' := h.wrote hw
    rcases Nat.lt_or_eq_of_le hle with hlt | rfl
    · refine (h'.runOperator_single hlt hop profiler context).mono ?_ fun _ _ hno => hno.elim
      exact fun _ s'' hrun => ⟨hlt, hw.trans hrun⟩
    · exact (h'.runOperator_double hn hwrap hop _ profiler context).mono (fun _ _ hno => hno.elim)
        fun _ _ he => he
  · rintro - s' ⟨hle, -⟩
    rw [List.length_zip, List.length_replicate, Nat.min_self, Graph.length_row] at hle
    omega

end Allotment.Crowded

/-! ## Allocated and not ready -/

namespace Site

variable {s s' : Site σ π}

theorem Fresh.quiet (h : s.Fresh) (hq : s.Quiet s') : s'.Fresh where
  free := hq.hold_eq.trans h.free
  granted := hq.granted_eq.trans h.granted
  plain := hq.store_eq ▸ h.plain

/-- At an aligned address no byte of an aligned buffer is left out. -/
theorem capacity_zeroed {size : Nat} (h : arenaAlignment ∣ size) :
    (zeroed 0 size).store.capacity = size := by
  obtain ⟨k, rfl⟩ := h
  have hpow : IsPowerOfTwo arenaAlignment := by decide
  change (Arena.ofBuffer 0 (.replicate (arenaAlignment * k) 0)).capacity = _
  rw [Arena.capacity_ofBuffer]
  change alignDown (arenaAlignment * k - min 0 _) arenaAlignment = _
  rw [Nat.zero_min, Nat.sub_zero, alignDown_of_isPowerOfTwo hpow,
    Nat.mul_div_cancel_left k hpow.pos, Nat.mul_comm]

end Site

namespace Interpreter

/-- A row whose length is a multiple of 2 ^ 32 is allocated, and then it cannot be invoked. -/
theorem invoke_row {n : Nat} (hn : 0 < n) (hwrap : n % 2 ^ 32 = 0) {s : Site σ π} (hs : s.Fresh)
    (hroom : 32 * (n + 2) ≤ s.store.capacity) :
    ∃ (tables : Tables) (s' : Site σ π), (ofRow n).allocate s =
        (.ok (), { ofRow n with state := .allocated tables }, s') ∧
      (invoke { ofRow n with state := .allocated tables } s').1 =
        .error (.memory (.overlappingRegions 0)) := by
  obtain ⟨tables, a, s', hallocate, hfree, hcrowded⟩ := allocate_row hs hroom
  have hruns := hcrowded.runAll_stops hn hwrap none none
  refine ⟨tables, s', hallocate, ?_⟩
  unfold invoke runOnce
  dsimp only
  rw [if_neg (not_not_intro hfree)]
  split
  · rename_i hexec
    cases hruns.of_error hexec
  · rename_i outcome _ _ hexec
    cases outcome with
    | ok _ => exact (hruns.of_ok hexec).elim
    | error e => exact congrArg Except.error (hruns.of_error hexec)

end Interpreter

namespace Tenancy

/-- A tenant with a row of operators moves in and is allocated. -/
def rowActions (n : Nat) : List (Action σ π) :=
  [.enter (.row n) fun _ => some (.always (.idle rowSizes)), .allocate 0]

/-- In a fresh store of enough bytes it is allocated and not ready, under first fit. -/
theorem run_row {n : Nat} (hn : 0 < n) (hwrap : n % 2 ^ 32 = 0) {s : Site σ π} (hs : s.Fresh)
    (hroom : 32 * (n + 2) ≤ s.store.capacity) :
    ∃ i tables, ((start s).run (rowActions n)).tenant? 0 = some i ∧ i.state = .allocated tables ∧
      (i.invoke ((start s).run (rowActions n)).site).1 = .error (.memory (.overlappingRegions 0)) := by
  obtain ⟨s₁, hcreate, hquiet⟩ := Interpreter.create_row n s
  have hroom₁ : 32 * (n + 2) ≤ s₁.store.capacity := by
    rw [hquiet.store_eq]
    exact hroom
  obtain ⟨tables, s₂, hallocate, hinvoke⟩ := Interpreter.invoke_row hn hwrap (hs.quiet hquiet) hroom₁
  let t := (start s).step (.enter (.row n) fun _ => some (.always (.idle rowSizes)))
  have hact : (start s).act (.enter (.row n) fun _ => some (.always (.idle rowSizes))) =
      (s₁, [some (.ofRow n)]) := by
    simp only [act, start, hcreate, List.nil_append]
  have hsite : t.site = s₁ := congrArg Prod.fst hact
  have htenants : t.tenants = [some (.ofRow n)] := congrArg Prod.snd hact
  have hallocated : t.act (.allocate 0) =
      (s₂, [some { Interpreter.ofRow n with state := .allocated tables }]) := by
    simp only [act, call, tenant?, htenants, hsite, List.getElem?_cons_zero, Option.join_some,
      hallocate, List.set_cons_zero]
  refine ⟨{ Interpreter.ofRow n with state := .allocated tables }, tables, ?_, rfl, ?_⟩
  · show ((t.act (.allocate 0)).2[0]?).join = _
    rw [hallocated]
    rfl
  · show (Interpreter.invoke _ (t.act (.allocate 0)).1).1 = _
    rw [hallocated]
    exact hinvoke

end Tenancy

/-- Puts every buffer at the start of the block. -/
def Strategy.stacked : Strategy where
  name := "stacked"
  place lifetimes _ _ :=
    .ok ⟨"stacked", lifetimes.map fun l => ⟨l, 0⟩, (lifetimes.map Lifetime.size).foldl max 0⟩

/-- A chain of three sums, planned by that strategy. -/
def Interpreter.stacked : Interpreter Unit Unit where
  graph := ⟨Graph.Sample.complex, Graph.Sample.complex_check⟩
  kernels := List.replicate 3 (SampleKernel.mockCustom id)
  strategy := .stacked

/-- Being allocated is not enough to be ready: not under a strategy without the contract, and not with
more than 2 ^ 32 scratch rows under first fit. -/
theorem Tenancy.allocated_need_not_bind :
    (((Interpreter.stacked.allocate (.zeroed 0 1024)).1 = .ok () ∧
      ((Interpreter.stacked.allocate (.zeroed 0 1024)).2.1.invoke
        (Interpreter.stacked.allocate (.zeroed 0 1024)).2.2).1 =
          .error (.memory (.overlappingRegions 848)))) ∧
    ∃ i tables, ((start (.zeroed 0 (2 ^ 38))).run (rowActions (2 ^ 32))).tenant? 0 = some i ∧
      i.state = .allocated tables ∧
      (i.invoke ((start (.zeroed 0 (2 ^ 38))).run (rowActions (2 ^ 32))).site).1 =
        .error (.memory (.overlappingRegions 0)) := by
  refine ⟨⟨by decide +kernel, by decide +kernel⟩,
    run_row (by decide) (by decide) (Site.zeroed_fresh 0 (2 ^ 38)) ?_⟩
  rw [Site.capacity_zeroed (by decide)]
  decide

end TensorArena
