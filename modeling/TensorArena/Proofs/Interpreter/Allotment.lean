import TensorArena.Proofs.Interpreter.Placing

/-!
# What a finished pass leaves

An `Allotment` lists what an interpreter owns after its allocation pass: the blocks, what every kernel
was granted, and the rows of its three tables. `Fits` says where all of it lies. The stages of the
pass take their blocks from the tail one below the other, and scratch blocks lie at the head, so what
belongs to different stages is apart:

    workspace ≤ scratch table ≤ activations ≤ variables ≤ tensor table ≤ persistent ≤ operator table

`Settled` says that the memory holds the tables. This is all that an interpreter asks of the memory
later on, and it survives every change outside the tables.
-/

namespace TensorArena

/-- Where the tail stood at the start of a pass and after each of its stages. -/
structure Stages where
  start : Nat
  operators : Nat
  persistent : Nat
  tensors : Nat
  vars : Nat
  activations : Nat
  scratch : Nat

/-- The tail only falls. -/
structure Stages.Falling (p : Stages) : Prop where
  operators : p.operators ≤ p.start
  persistent : p.persistent ≤ p.operators
  tensors : p.tensors ≤ p.persistent
  vars : p.vars ≤ p.tensors
  activations : p.activations ≤ p.vars
  scratch : p.scratch ≤ p.activations

/-- What an interpreter owns after its pass: the first spans are those of variables alone, the second
ones the rows of the tensor table. -/
structure Allotment where
  blocks : List Block
  stages : Stages
  grants : List Grant
  vars : List Span
  spans : List Span
  scratch : List Span
  activations : ByteRange
  workspace : ByteRange

namespace Allotment

/-- The rows of the operator table. -/
def rows (a : Allotment) : List OpRow :=
  Pass.grantRows 0 a.grants

/-- The lifetimes of the scratch blocks. -/
def lifetimes (a : Allotment) : List Lifetime :=
  Pass.grantLifetimes 0 a.grants

/-- Where everything lies. -/
structure Fits (a : Allotment) (g : Graph) (tables : Tables) : Prop where
  falling : a.stages.Falling
  operators : Stretch.Took ⟨a.blocks, a.stages.operators, a.stages.start⟩
    (Memory.tableRange OpRow.layout tables.operators a.rows.length)
  grants_length : a.grants.length = g.operators.length
  granted : Pass.Granted ⟨a.blocks, a.stages.persistent, a.stages.operators⟩ a.grants
  tensors : Stretch.Took ⟨a.blocks, a.stages.tensors, a.stages.persistent⟩
    (Memory.tableRange Span.layout tables.tensors a.spans.length)
  vars : Pass.VariableSpans ⟨a.blocks, a.stages.vars, a.stages.tensors⟩ g.tensors
    a.vars
  activations : Pass.ActivationSpans g ⟨a.blocks, a.stages.activations, a.stages.vars⟩
    a.activations a.vars a.spans
  scratch : Pass.ScratchSpans ⟨a.blocks, a.stages.scratch, a.stages.activations⟩ a.lifetimes
    tables.scratch a.workspace a.scratch

/-- The memory holds the tables. -/
structure Settled (a : Allotment) (tables : Tables) (m : Memory) : Prop where
  operators : m.HasTable OpRow.layout tables.operators a.rows
  tensors : m.HasTable Span.layout tables.tensors a.spans
  scratch : a.scratch ≠ [] → m.HasTable Span.layout tables.scratch a.scratch

theorem length_grantRows (first : Nat) (grants : List Grant) :
    (Pass.grantRows first grants).length = grants.length := by
  induction grants generalizing first with
  | nil => rfl
  | cons g rest ih => rw [Pass.grantRows, List.length_cons, ih, List.length_cons]

theorem Fits.rows_length {a : Allotment} {g : Graph} {tables : Tables} (h : a.Fits g tables) :
    a.rows.length = g.operators.length := by
  rw [rows, length_grantRows, h.grants_length]

theorem Fits.spans_length {a : Allotment} {g : Graph} {tables : Tables} (h : a.Fits g tables) :
    a.spans.length = g.tensors.length :=
  h.activations.length_eq.trans h.vars.length_eq

theorem Fits.exists_span {a : Allotment} {g : Graph} {tables : Tables} (h : a.Fits g tables)
    {id : Nat} {t : Tensor} (ht : g.tensors[id]? = some t) : ∃ span, a.spans[id]? = some span := by
  have hlt := (List.getElem?_eq_some_iff.mp ht).1
  rw [← h.spans_length] at hlt
  exact ⟨_, List.getElem?_eq_getElem hlt⟩

/-! ## The tables are apart -/

theorem Fits.operators_apart_tensors {a : Allotment} {g : Graph} {tables : Tables}
    (h : a.Fits g tables) :
    (Memory.tableRange OpRow.layout tables.operators a.rows.length).Apart
      (Memory.tableRange Span.layout tables.tensors a.spans.length) :=
  h.operators.apart h.tensors h.falling.persistent

/-- What was taken after the tensor table lies below both tables. -/
theorem Fits.tables_apart {a : Allotment} {g : Graph} {tables : Tables} (h : a.Fits g tables)
    {k : Stretch} {r : ByteRange} (htook : k.Took r) (hhigh : k.high ≤ a.stages.tensors) :
    (Memory.tableRange OpRow.layout tables.operators a.rows.length).Apart r ∧
      (Memory.tableRange Span.layout tables.tensors a.spans.length).Apart r :=
  ⟨h.operators.apart htook
      (Nat.le_trans hhigh (Nat.le_trans h.falling.tensors h.falling.persistent)),
    h.tensors.apart htook hhigh⟩

theorem Fits.tables_apart_scratch {a : Allotment} {g : Graph} {tables : Tables}
    (h : a.Fits g tables) (hne : a.scratch ≠ []) :
    (Memory.tableRange OpRow.layout tables.operators a.rows.length).Apart
        (Memory.tableRange Span.layout tables.scratch a.scratch.length) ∧
      (Memory.tableRange Span.layout tables.tensors a.spans.length).Apart
        (Memory.tableRange Span.layout tables.scratch a.scratch.length) :=
  h.tables_apart (h.scratch.took hne) (Nat.le_trans h.falling.activations h.falling.vars)

/-- Persistent data lie between the operator table and the tensor table. -/
theorem Fits.tables_apart_userData {a : Allotment} {g : Graph} {tables : Tables}
    (h : a.Fits g tables) {grant : Grant} (hgrant : grant ∈ a.grants) {r : ByteRange}
    (hr : grant.userData = some r) :
    (Memory.tableRange OpRow.layout tables.operators a.rows.length).Apart r ∧
      (Memory.tableRange Span.layout tables.tensors a.spans.length).Apart r := by
  have htook := (h.granted.within grant hgrant).userData r hr
  exact ⟨h.operators.apart htook (Nat.le_refl _), (htook.apart h.tensors (Nat.le_refl _)).symm⟩

/-- The tables stay settled when no byte of them changes. -/
theorem Settled.congr {a : Allotment} {tables : Tables} {m m' : Memory} (h : a.Settled tables m)
    (hops : m.AgreeOn m' (Memory.tableRange OpRow.layout tables.operators a.rows.length))
    (htensors : m.AgreeOn m' (Memory.tableRange Span.layout tables.tensors a.spans.length))
    (hscratch : a.scratch ≠ [] →
      m.AgreeOn m' (Memory.tableRange Span.layout tables.scratch a.scratch.length)) :
    a.Settled tables m' where
  operators := h.operators.congr hops
  tensors := h.tensors.congr htensors
  scratch hne := (h.scratch hne).congr (hscratch hne)

end Allotment

namespace Pass

variable {σ π : Type}

/-- The site when the first kernel is prepared. -/
def beforeKernels (g : Graph) (s : Site σ π) : Site σ π :=
  (s.rewind.allocate .tail (g.operators.length * OpRow.layout.size) .allocatorInternal).2

/-- A pass from one site to another has left the allotment, with the activations where the strategy
planned them, the persistent data as the kernels left them and all variables zero. -/
structure Committed (g : Graph) (kernels : List (Kernel σ)) (strategy : Strategy)
    (s s' : Site σ π) (tables : Tables) (a : Allotment) : Prop where
  since : s.Since s'
  fits : a.Fits g tables
  settled : a.Settled tables s'.memory
  blocks_eq : a.blocks = s.fresh s'
  start_eq : a.stages.start = s.arena.tail
  low_eq : a.stages.scratch = s'.arena.tail
  grants_eq : a.grants =
    (prepared g (g.operators.zip kernels) (beforeKernels g s)).map (·.1)
  planned : ∃ p room base, strategy.place g.lifetimes arenaAlignment room = .ok p ∧
    Entered g p base a.spans
  persistent : ∀ p ∈ prepared g (g.operators.zip kernels) (beforeKernels g s),
    (p.1.userData.map s'.memory.piece).getD [] = p.2
  zeroed : ∀ p ∈ g.tensors.zip a.vars, Zeroed s'.memory p.1 p.2

/-- Writing the operator table and the tensor table at the end of a pass. -/
theorem commitTables_runs {s s₆ : Site σ π} {g : Graph} {tables : Tables} {a : Allotment}
    (h₆ : s.Since s₆) (fits : a.Fits g tables)
    (hoperators : s.Took s₆ (Memory.tableRange OpRow.layout tables.operators a.rows.length))
    (htensors : s.Took s₆ (Memory.tableRange Span.layout tables.tensors a.spans.length))
    (hheld : a.scratch ≠ [] → s₆.memory.HasTable Span.layout tables.scratch a.scratch) :
    (do
      commitTable OpRow.layout tables.operators a.rows
      commitTable Span.layout tables.tensors a.spans
      pure tables : Pass σ π AllocationError Tables).Runs s₆
      (fun answer s₈ => answer = tables ∧ s.Since s₈ ∧ s₈.granted = s₆.granted ∧
        s₈.arena.tail = s₆.arena.tail ∧ a.Settled tables s₈.memory ∧
        ∀ r, (Memory.tableRange OpRow.layout tables.operators a.rows.length).Apart r →
          (Memory.tableRange Span.layout tables.tensors a.spans.length).Apart r →
          s₆.memory.AgreeOn s₈.memory r)
      (fun _ s' => s.Since s') := by
  have hlenOps := Layout.length_flatMap_encode OpRow.layout_lawful a.rows
  have hlenTensors := Layout.length_flatMap_encode Span.layout_lawful a.spans
  have h₇ : s.Since (s₆.mapMemory fun m =>
      m.write tables.operators (a.rows.flatMap OpRow.layout.encode)) :=
    h₆.write_took hoperators (Nat.le_of_eq hlenOps)
  refine ((commitTable_runs OpRow.layout_lawful s₆ tables.operators a.rows).mono
    (fun _ _ h => h) fun _ s' hs' => hs' ▸ h₆).bind ?_
  rintro - _ ⟨rfl, hops⟩
  refine ((commitTable_runs Span.layout_lawful _ tables.tensors a.spans).mono
    (fun _ _ h => h) fun _ s' hs' => hs' ▸ h₇).bind ?_
  rintro - _ ⟨rfl, htens⟩
  -- Neither table reaches what is apart from both.
  have hagree : ∀ r, (Memory.tableRange OpRow.layout tables.operators a.rows.length).Apart r →
      (Memory.tableRange Span.layout tables.tensors a.spans.length).Apart r →
      s₆.memory.AgreeOn ((s₆.memory.write tables.operators
        (a.rows.flatMap OpRow.layout.encode)).write tables.tensors
          (a.spans.flatMap Span.layout.encode)) r := by
    intro r hr hr'
    exact (OpRow.layout_lawful.agreeOn_write _ hr).trans (Span.layout_lawful.agreeOn_write _ hr')
  have htook : s.Took (s₆.mapMemory fun m =>
      m.write tables.operators (a.rows.flatMap OpRow.layout.encode))
      (Memory.tableRange Span.layout tables.tensors a.spans.length) := by
    rw [Site.Took, Site.stretch_mapMemory]
    exact htensors
  simp only [Site.memory_mapMemory] at hops htens
  refine .of_pure ⟨rfl, h₇.write_took htook (Nat.le_of_eq hlenTensors), rfl, ?_, ?_, ?_⟩
  · rw [Site.arena_mapMemory, Site.arena_mapMemory]
  · simp only [Site.memory_mapMemory]
    exact ⟨hops.congr (Span.layout_lawful.agreeOn_write _ fits.operators_apart_tensors.symm), htens,
      fun hne => (hheld hne).congr (hagree _ (fits.tables_apart_scratch hne).1
        (fits.tables_apart_scratch hne).2)⟩
  · simp only [Site.memory_mapMemory]
    exact hagree

theorem commit_runs {s : Site σ π} (hs : s.Sound) (g : Graph) (kernels : List (Kernel σ))
    (hkernels : kernels.length = g.operators.length) {strategy : Strategy}
    (hsound : strategy.Sound) :
    (commit g kernels strategy : Pass σ π AllocationError Tables).Runs s
      (fun tables s' => ∃ a, Committed g kernels strategy s s' tables a) (fun _ s' => s.Since s') := by
  -- Each stage belongs to the pass as a whole, and takes its blocks below those of the stage before.
  have h₀ := Site.Since.rewind hs
  unfold commit
  refine .modify_bind (((reserve_tail_runs h₀.sound _ _).after h₀).bind
    fun operators s₁ ⟨h₁', hoperators, hsite⟩ => ?_)
  have h₁ := h₀.trans h₁'
  obtain rfl : beforeKernels g s = s₁ := hsite
  refine ((prepareAll_runs h₁.sound g (g.operators.zip kernels) 0 0).after h₁).bind
    fun answer s₂ ⟨h₂', hlength, hgranted, hpersistent, hanswer⟩ => ?_
  have h₂ := h₁.trans h₂'
  subst hanswer
  refine ((reserve_tail_runs h₂.sound _ _).after h₂).bind fun tensors s₃ ⟨h₃', htensors, _⟩ => ?_
  have h₃ := h₂.trans h₃'
  refine ((reserveVariables_runs h₃.sound g.tensors).after h₃).bind
    fun vars s₄ ⟨h₄', hvariables, hzeroed⟩ => ?_
  have h₄ := h₃.trans h₄'
  refine ((placeActivations_runs h₄.sound g hsound hvariables.length_eq).after h₄).bind
    fun spans s₅ ⟨h₅', ⟨activations, hactivations⟩, hplanned⟩ => ?_
  have h₅ := h₄.trans h₅'
  refine ((placeScratch_runs h₅.sound g hsound _).after h₅).bind
    fun scratchTable s₆ ⟨h₆', workspace, scratch, hscratch, hheld⟩ => ?_
  have h₆ := h₅.trans h₆'
  -- All blocks together are those that the whole pass was granted.
  let a : Allotment :=
    { blocks := s.fresh s₆
      stages := ⟨s.rewind.arena.tail, (beforeKernels g s).arena.tail, s₂.arena.tail, s₃.arena.tail,
        s₄.arena.tail, s₅.arena.tail, s₆.arena.tail⟩
      grants := (prepared g (g.operators.zip kernels) (beforeKernels g s)).map (·.1)
      vars, spans, scratch, activations, workspace }
  have hgrants : a.grants.length = g.operators.length := by
    rw [List.length_map, hlength, List.length_zip, hkernels, Nat.min_self]
  have hrows : a.rows.length = g.operators.length := by
    rw [Allotment.rows, Allotment.length_grantRows, hgrants]
  have hspans : a.spans.length = g.tensors.length :=
    hactivations.length_eq.trans hvariables.length_eq
  -- From each stage to the end, for what a stage leaves must last.
  have h₅₆ := h₆'
  have h₄₆ := h₅'.trans h₅₆
  have h₃₆ := h₄'.trans h₄₆
  have h₂₆ := h₃'.trans h₃₆
  have h₁₆ := h₂'.trans h₂₆
  have fits : a.Fits g ⟨operators, tensors, scratchTable⟩ :=
    { falling := ⟨h₁'.later.tail_le, h₂'.later.tail_le, h₃'.later.tail_le, h₄'.later.tail_le,
        h₅'.later.tail_le, h₆'.later.tail_le⟩
      operators := by
        rw [hrows]
        exact hoperators.mono ⟨h₀.fresh_between h₁' h₁₆, Nat.le_refl _, Nat.le_refl _⟩
      grants_length := hgrants
      granted := hgranted.mono ⟨h₁.fresh_between h₂' h₂₆, Nat.le_refl _, Nat.le_refl _⟩
      tensors := by
        rw [hspans]
        exact htensors.mono ⟨h₂.fresh_between h₃' h₃₆, Nat.le_refl _, Nat.le_refl _⟩
      vars := hvariables.mono ⟨h₃.fresh_between h₄' h₄₆, Nat.le_refl _, Nat.le_refl _⟩
      activations := hactivations.mono ⟨h₄.fresh_between h₅' h₅₆, Nat.le_refl _, Nat.le_refl _⟩
      scratch := hscratch.mono (h₅.fresh_earlier h₆') }
  have hlow : s.rewind.arena.tail = s.arena.tail := by
    rw [Site.arena, Site.rewind, Store.arena_resetHead]
    rfl
  refine (commitTables_runs h₆ fits ?_ ?_ hheld).mono ?_ fun _ _ h => h
  · exact (fits.operators.mono ⟨List.Subset.refl _, h₁₆.later.tail_le, Nat.le_of_eq hlow⟩)
  · exact (fits.tensors.mono ⟨List.Subset.refl _, h₃₆.later.tail_le, h₂.later.tail_le⟩)
  rintro answer s₈ ⟨rfl, h₈, hgranted₈, htail₈, hsettled, hagree⟩
  refine ⟨a, h₈, fits, hsettled, Site.fresh_congr hgranted₈.symm, hlow, htail₈.symm, rfl, hplanned,
    fun p hp => ?_, fun p hp hv => ?_⟩
  · rw [← hpersistent p hp]
    cases hdata : p.1.userData with
    | none => rfl
    | some r =>
      have hmem : p.1 ∈ a.grants := List.mem_map_of_mem hp
      obtain ⟨hoperators, htensors⟩ := fits.tables_apart_userData hmem hdata
      have hkept := (h₂₆.agreeOn_took ((hgranted.within p.1 hmem).userData r hdata)).trans
        (hagree r hoperators htensors)
      rw [Option.map_some, Option.map_some, hkept.piece_eq]
  · obtain ⟨hoperators, htensors⟩ :=
      fits.tables_apart ((fits.vars.each p hp).took hv) (Nat.le_refl _)
    have hkept := (h₄₆.agreeOn_took ((hvariables.each p hp).took hv)).trans
      (hagree _ hoperators htensors)
    rw [hkept.piece_eq, hzeroed p hp hv]

end Pass

end TensorArena
