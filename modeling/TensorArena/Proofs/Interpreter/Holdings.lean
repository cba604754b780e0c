import TensorArena.Proofs.Interpreter.Allotment

/-!
# What a pass reserves

A pass that succeeds is granted blocks in a fixed order: the operator table, the persistent data of the
kernels, the tensor table, the variables, one block for all activations, the scratch table, and one
block at the head for all scratch blocks. `Holdings` lists all of them, with the offsets and lengths
that were granted, and `commit_stages` splits a pass into its stages, so that each stage is shown to
take its own blocks and no others.
-/

namespace TensorArena

variable {σ π : Type}

/-! ## Blocks granted in order -/

theorem Arena.dvd_of_allocate {a a' : Arena} {region : Region} {size align offset : Nat}
    (h : a.allocate region size align = .ok (offset, a')) : align ∣ offset := by
  cases region with
  | head =>
    obtain ⟨hlegal, rfl, -⟩ := allocateHead_ok h
    exact dvd_alignUp hlegal.1 _
  | tail =>
    obtain ⟨hlegal, -, rfl, -⟩ := allocateTail_ok h
    exact dvd_alignDown hlegal.1 _

/-- A block at the alignment of the arena. -/
def Block.aligned (region : Region) (r : ByteRange) : Block :=
  ⟨region, r, arenaAlignment⟩

/-- A plan with the place of its block. -/
structure Home where
  base : Nat
  plan : Plan

def Home.range (home : Home) : ByteRange :=
  ⟨home.base, home.plan.peak⟩

/-- The block of what may have been granted at the tail. -/
def Block.held (r : Option ByteRange) : List Block :=
  r.toList.map (aligned .tail)

namespace Site

/-- Between two sites exactly these blocks were granted, the oldest first. -/
structure Gains (s : Site σ π) (blocks : List Block) (s' : Site σ π) : Prop where
  granted_eq : s'.granted = blocks.reverse ++ s.granted
  aligned : ∀ b ∈ blocks, arenaAlignment ∣ b.range.offset

variable {s s' s'' : Site σ π} {blocks blocks' : List Block}

theorem Gains.none (h : s'.granted = s.granted) : s.Gains [] s' :=
  ⟨h, nofun⟩

theorem Gains.trans (h : s.Gains blocks s') (h' : s'.Gains blocks' s'') :
    s.Gains (blocks ++ blocks') s'' where
  granted_eq := by
    rw [h'.granted_eq, h.granted_eq, List.reverse_append, List.append_assoc]
  aligned b hb := by
    rcases List.mem_append.mp hb with hb | hb
    · exact h.aligned b hb
    · exact h'.aligned b hb

/-- What grants no block may follow. -/
theorem Gains.before (h : s.Gains blocks s') (h' : s''.granted = s'.granted) :
    s.Gains blocks s'' :=
  ⟨h'.trans h.granted_eq, h.aligned⟩

theorem allocate_gains {region : Region} {size offset : Nat} {category : Category}
    (h : s.allocate region size category = (.ok offset, s')) :
    s.Gains [.aligned region ⟨offset, size⟩] s' := by
  unfold allocate request at h
  split at h
  · rename_i hallocate
    cases h
    exact ⟨rfl, List.forall_mem_singleton.mpr (Arena.dvd_of_allocate (Store.allocate_ok hallocate))⟩
  · cases h

end Site

namespace Pass

/-! ## Passes that succeed -/

section

variable {ε α β : Type} {s s' : Site σ π}

theorem exec_bind_ok {p : Pass σ π ε α} {f : α → Pass σ π ε β} {b : β}
    (h : (p >>= f).exec s = (.ok b, s')) :
    ∃ a s₁, p.exec s = (.ok a, s₁) ∧ (f a).exec s₁ = (.ok b, s') := by
  rw [exec_bind] at h
  split at h
  · rename_i a s₁ hp
    exact ⟨a, s₁, hp, h⟩
  · cases h

theorem exec_pure_ok {a b : α} (h : (Pure.pure a : Pass σ π ε α).exec s = (.ok b, s')) :
    b = a ∧ s' = s := by
  cases h
  exact ⟨rfl, rfl⟩

theorem exec_lift_ok {x : Except ε α} {a : α}
    (h : (liftExcept x : Pass σ π ε α).exec s = (.ok a, s')) : x = .ok a ∧ s' = s := by
  cases x with
  | ok b =>
    cases h
    exact ⟨rfl, rfl⟩
  | error e => cases h

end

variable {s s' : Site σ π}

theorem reserve_gains {region : Region} {size offset : Nat} {category : Category}
    (h : (reserve region size category).exec s = (.ok offset, s')) :
    s.Gains [.aligned region ⟨offset, size⟩] s' := by
  unfold exec reserve at h
  simp only [ExceptT.run_mk, StateT.run] at h
  split at h
  · rename_i hallocate
    cases h
    exact Site.allocate_gains hallocate
  · cases h

end Pass

/-! ## Persistent data -/

/-- A kernel is granted what it lists in the end and did not list before, and nothing else. -/
theorem Preparation.run_gains (p : Preparation σ) {g g' : Grant} {s s' : Site σ π}
    (h : p.run g s = (.ok g', s')) :
    ∃ blocks, s.Gains blocks s' ∧ Block.held g'.userData = Block.held g.userData ++ blocks := by
  induction p generalizing g s with
  | done =>
    cases h
    exact ⟨[], .none rfl, (List.append_nil _).symm⟩
  | fail e => cases h
  | scratch size granted refused ihGranted ihRefused =>
    unfold run at h
    split at h
    · exact ihRefused _ h
    · obtain ⟨blocks, hgains, hheld⟩ := ihGranted _ h
      exact ⟨blocks, hgains, hheld⟩
  | outside change next ih =>
    unfold run at h
    obtain ⟨blocks, hgains, hheld⟩ := ih _ h
    exact ⟨blocks, ⟨hgains.granted_eq, hgains.aligned⟩, hheld⟩
  | persistent size fill granted refused ihGranted ihRefused =>
    unfold run at h
    split at h
    · exact ihRefused _ h
    · rename_i hnone
      have hdata : g.userData = none := Option.not_isSome_iff_eq_none.mp hnone
      split at h
      · rename_i e s₁ hrefused
        obtain ⟨blocks, hgains, hheld⟩ := ihRefused _ h
        refine ⟨blocks, ?_, hheld⟩
        exact (Site.Gains.none (Site.request_error hrefused).2.1).trans hgains
      · rename_i offset s₁ hgranted
        have hfirst := Site.allocate_gains hgranted
        -- The block is listed at once, whether or not it can be filled.
        have hlater : ∀ {blocks}, s₁.Gains blocks s' →
            Block.held g'.userData = Block.held (some ⟨offset, size⟩) ++ blocks →
            ∃ blocks, s.Gains blocks s' ∧
              Block.held g'.userData = Block.held g.userData ++ blocks := by
          intro blocks hgains hheld
          exact ⟨_, hfirst.trans hgains, by rw [hdata, hheld]; rfl⟩
        dsimp only at h
        split at h
        · obtain ⟨blocks, hgains, hheld⟩ := ihRefused _ h
          exact hlater hgains hheld
        · obtain ⟨blocks, hgains, hheld⟩ := ihGranted _ h
          exact hlater ⟨hgains.granted_eq, hgains.aligned⟩ hheld

namespace Pass

variable {s s' : Site σ π}

theorem prepare_gains {g : Graph} {op : Operator} {k : Kernel σ} {grant : Grant}
    (h : (prepare g op k : Pass σ π AllocationError Grant).exec s = (.ok grant, s')) :
    s.Gains (Block.held grant.userData) s' ∧
      (k.prepare (.of g op)).run {} s = (.ok grant, s') := by
  unfold exec prepare at h
  simp only [ExceptT.run_mk, StateT.run] at h
  split at h
  · rename_i hrun
    cases h
    obtain ⟨blocks, hgains, hheld⟩ := Preparation.run_gains _ hrun
    exact ⟨hheld ▸ hgains, hrun⟩
  · cases h

/-- Kernels are granted their persistent data in the order of the operators. -/
theorem prepareAll_gains {g : Graph} {pairs : List (Operator × Kernel σ)} {index first : Nat}
    {answer : List OpRow × List Lifetime}
    (h : (prepareAll g pairs index first : Pass σ π AllocationError _).exec s = (.ok answer, s')) :
    s.Gains ((prepared g pairs s).flatMap fun p => Block.held p.1.userData) s' := by
  induction pairs generalizing s index first answer with
  | nil =>
    obtain ⟨-, rfl⟩ := exec_pure_ok h
    exact .none rfl
  | cons pair rest ih =>
    obtain ⟨op, k⟩ := pair
    rw [prepareAll] at h
    obtain ⟨grant, s₁, hprepare, h₁⟩ := exec_bind_ok h
    obtain ⟨span, s₂, hspan, h₂⟩ := exec_bind_ok h₁
    obtain ⟨later, s₃, hrest, h₃⟩ := exec_bind_ok h₂
    obtain ⟨-, rfl⟩ := exec_lift_ok hspan
    obtain ⟨-, rfl⟩ := exec_pure_ok h₃
    obtain ⟨hgains, hrun⟩ := prepare_gains hprepare
    rw [prepared, hrun, List.flatMap_cons]
    exact hgains.trans (ih hrest)

/-! ## Variables -/

/-- The span of a range, and the mark where there is none. -/
def rangeSpan : Option ByteRange → Span
  | some r => ⟨UInt32.ofNat r.offset, UInt32.ofNat r.length⟩
  | none => .unplaced

/-- What variables were granted, tensor by tensor: each a block of its size. -/
structure Variables (ts : List Tensor) (vars : List (Option ByteRange)) : Prop where
  sizes : vars.map (Option.map ByteRange.length) =
    ts.map fun t => if t.isVariable then some t.size else none
  reach : ∀ r, some r ∈ vars → r.stop ≤ Word.max32

theorem reserveVariable_gains {t : Tensor} {span : Span}
    (h : (reserveVariable t : Pass σ π AllocationError Span).exec s = (.ok span, s')) :
    ∃ r, s.Gains (Block.held r) s' ∧ span = rangeSpan r ∧ Variables [t] [r] := by
  unfold reserveVariable at h
  split at h
  · rename_i hv
    obtain ⟨offset, s₁, hreserve, h₁⟩ := exec_bind_ok h
    obtain ⟨_, s₂, hmodify, h₂⟩ := exec_bind_ok h₁
    obtain ⟨hmake, rfl⟩ := exec_lift_ok h₂
    cases hmodify
    obtain ⟨rfl, -, hreach⟩ := Span.make_ok hmake
    refine ⟨some ⟨offset, t.size⟩, (reserve_gains hreserve).before rfl, rfl, by simp [hv], ?_⟩
    intro r hr
    cases List.mem_singleton.mp hr
    exact hreach
  · rename_i hv
    obtain ⟨rfl, rfl⟩ := exec_pure_ok h
    exact ⟨none, .none rfl, rfl, by simp [hv], by simp⟩

theorem reserveVariables_gains {ts : List Tensor} {spans : List Span}
    (h : (ts.mapM reserveVariable : Pass σ π AllocationError _).exec s = (.ok spans, s')) :
    ∃ vars, s.Gains (vars.flatMap Block.held) s' ∧ spans = vars.map rangeSpan ∧
      Variables ts vars := by
  induction ts generalizing s spans with
  | nil =>
    obtain ⟨rfl, rfl⟩ := exec_pure_ok h
    exact ⟨[], .none rfl, rfl, rfl, nofun⟩
  | cons t rest ih =>
    rw [List.mapM_cons] at h
    obtain ⟨span, s₁, hfirst, h₁⟩ := exec_bind_ok h
    obtain ⟨spans, s₂, hrest, h₂⟩ := exec_bind_ok h₁
    obtain ⟨rfl, rfl⟩ := exec_pure_ok h₂
    obtain ⟨r, hgains, rfl, hsizes, hreach⟩ := reserveVariable_gains hfirst
    obtain ⟨vars, hgains', rfl, hsizes', hreach'⟩ := ih hrest
    refine ⟨r :: vars, hgains.trans hgains', rfl, ?_, ?_⟩
    · simp only [List.map_cons, List.map_nil, List.cons.injEq, and_true] at hsizes
      rw [List.map_cons, List.map_cons, hsizes, hsizes']
    · intro q hq
      rcases List.mem_cons.mp hq with heq | hq
      · exact hreach q (heq ▸ List.mem_singleton_self _)
      · exact hreach' q hq

/-! ## Planned blocks -/

theorem note_ok {ε : Type} {level : Level} {text : String} {u : Unit}
    (h : (note level text : Pass σ π ε Unit).exec s = (.ok u, s')) : s'.granted = s.granted := by
  cases h
  rfl

theorem plan_ok {strategy : Strategy} {lifetimes : List Lifetime} {room : Nat} {p : Plan}
    (h : (plan strategy lifetimes room : Pass σ π AllocationError Plan).exec s = (.ok p, s')) :
    strategy.place lifetimes arenaAlignment room = .ok p ∧ s'.granted = s.granted := by
  unfold plan at h
  dsimp only at h
  obtain ⟨q, s₁, hlift, h₁⟩ := exec_bind_ok h
  obtain ⟨hplace, rfl⟩ := exec_lift_ok hlift
  have hq : strategy.place lifetimes arenaAlignment room = .ok q := by
    cases hplace' : strategy.place lifetimes arenaAlignment room with
    | error e =>
      rw [hplace'] at hplace
      cases hplace
    | ok q' =>
      rw [hplace'] at hplace
      cases hplace
      rfl
  split at h₁
  · obtain ⟨_, s₂, hnote, h₂⟩ := exec_bind_ok h₁
    obtain ⟨rfl, rfl⟩ := exec_pure_ok h₂
    exact ⟨hq, note_ok hnote⟩
  · obtain ⟨rfl, rfl⟩ := exec_pure_ok h₁
    exact ⟨hq, rfl⟩

theorem enter_ok {base : Nat} {spans spans' : List Span} {p : Plan} {text : String}
    (h : (do
      let spans ← liftExcept (enterSpans base spans p.placements)
      note .debug text
      pure spans : Pass σ π AllocationError _).exec s = (.ok spans', s')) :
    enterSpans base spans p.placements = .ok spans' ∧ s'.granted = s.granted := by
  obtain ⟨entered, s₁, hlift, h₁⟩ := exec_bind_ok h
  obtain ⟨henter, rfl⟩ := exec_lift_ok hlift
  obtain ⟨_, s₂, hnote, h₂⟩ := exec_bind_ok h₁
  obtain ⟨rfl, rfl⟩ := exec_pure_ok h₂
  exact ⟨henter, note_ok hnote⟩

theorem placeActivations_gains {g : Graph} {strategy : Strategy} {spans spans' : List Span}
    (h : (placeActivations g strategy spans : Pass σ π AllocationError _).exec s =
      (.ok spans', s')) :
    ∃ home : Home, (∃ room, strategy.place g.lifetimes arenaAlignment room = .ok home.plan) ∧
      s.Gains (if 0 < home.plan.peak then [.aligned .tail home.range] else []) s' ∧
      (home.plan.peak = 0 → home.base = 0) ∧
      enterSpans home.base spans home.plan.placements = .ok spans' := by
  unfold placeActivations at h
  obtain ⟨_, s₁, hget, h₁⟩ := exec_bind_ok h
  cases hget
  obtain ⟨p, s₂, hplan, h₂⟩ := exec_bind_ok h₁
  obtain ⟨hplace, hgranted⟩ := plan_ok hplan
  dsimp only at h₂
  split at h₂
  · rename_i hpeak
    obtain ⟨base, s₃, hbase, h₃⟩ := exec_bind_ok h₂
    obtain ⟨henter, hafter⟩ := enter_ok h₃
    refine ⟨⟨base, p⟩, ⟨_, hplace⟩, ?_, fun hzero => absurd hzero (Nat.ne_of_gt hpeak), henter⟩
    rw [if_pos hpeak]
    exact (Site.Gains.none hgranted).trans ((reserve_gains hbase).before hafter)
  · rename_i hpeak
    obtain ⟨base, s₃, hbase, h₃⟩ := exec_bind_ok h₂
    obtain ⟨rfl, rfl⟩ := exec_pure_ok hbase
    obtain ⟨henter, hafter⟩ := enter_ok h₃
    refine ⟨⟨0, p⟩, ⟨_, hplace⟩, ?_, fun _ => rfl, henter⟩
    rw [if_neg hpeak]
    exact .none (hafter.trans hgranted)

theorem commitTable_ok {layout : Layout α} (hl : layout.Lawful) {table : Nat} {rows : List α}
    (h : (commitTable layout table rows : Pass σ π AllocationError Unit).exec s = (.ok (), s')) :
    s' = (s.mapMemory fun m => m.write table (rows.flatMap layout.encode)) ∧
      s'.memory.HasTable layout table rows :=
  (commitTable_runs hl s table rows).of_ok h

/-- The scratch table and the block of all scratch blocks, if there are any. -/
def scratchBlocks (table : Nat) : Option Home → List Block
  | none => []
  | some home =>
    [.aligned .tail (Memory.tableRange Span.layout table home.plan.placements.length),
      .aligned .head home.range]

/-- The scratch blocks are granted after their table, and the table lists them. -/
theorem placeScratch_gains {g : Graph} {strategy : Strategy} (hsound : strategy.Sound)
    {lifetimes : List Lifetime} {table : Nat}
    (h : (placeScratch g strategy lifetimes : Pass σ π AllocationError Nat).exec s =
      (.ok table, s')) :
    ∃ scratch : Option Home, s.Gains (scratchBlocks table scratch) s' ∧
      (scratch = none ↔ lifetimes = []) ∧
      ∀ home, scratch = some home →
        (∃ room, strategy.place lifetimes arenaAlignment room = .ok home.plan) ∧
        ∃ rows, home.plan.placements.mapM (placedSpan home.base) = .ok rows ∧
          s'.memory.HasTable Span.layout table rows := by
  unfold placeScratch at h
  split at h
  · rename_i hempty
    obtain ⟨rfl, rfl⟩ := exec_pure_ok h
    exact ⟨none, .none rfl, iff_of_true rfl (List.isEmpty_iff.mp hempty), nofun⟩
  · rename_i hne
    obtain ⟨table', s₁, htable, h₁⟩ := exec_bind_ok h
    obtain ⟨_, s₂, hget, h₂⟩ := exec_bind_ok h₁
    cases hget
    obtain ⟨p, s₃, hplan, h₃⟩ := exec_bind_ok h₂
    obtain ⟨hplace, hgranted⟩ := plan_ok hplan
    obtain ⟨base, s₄, hbase, h₄⟩ := exec_bind_ok h₃
    obtain ⟨rows, s₅, hlift, h₅⟩ := exec_bind_ok h₄
    obtain ⟨hrows, rfl⟩ := exec_lift_ok hlift
    obtain ⟨_, s₆, hcommit, h₆⟩ := exec_bind_ok h₅
    obtain ⟨rfl, hheld⟩ := commitTable_ok Span.layout_lawful hcommit
    obtain ⟨_, s₇, hnote, h₇⟩ := exec_bind_ok h₆
    cases hnote
    obtain ⟨rfl, rfl⟩ := exec_pure_ok h₇
    have hgains := (reserve_gains htable).trans
      ((Site.Gains.none hgranted).trans (reserve_gains hbase))
    have hcount : p.placements.length = lifetimes.length := by
      rw [← (hsound _ _ _ _ hplace).lifetimes_eq, List.length_map]
    refine ⟨some ⟨base, p⟩, ?_, iff_of_false nofun fun heq => hne (by rw [heq]; rfl),
      fun home hhome => ?_⟩
    · simp only [scratchBlocks, hcount]
      exact hgains.before rfl
    · cases hhome
      exact ⟨⟨_, hplace⟩, rows, hrows, hheld⟩

/-! ## The whole pass -/

/-- What the kernels are granted when they are prepared in order. -/
def kernelGrants (g : Graph) (kernels : List (Kernel σ)) (s : Site σ π) : List Grant :=
  (prepared g (g.operators.zip kernels) (beforeKernels g s)).map (·.1)

/-- A pass that succeeds goes through its stages. -/
theorem commit_stages {g : Graph} {kernels : List (Kernel σ)} {strategy : Strategy} {tables : Tables}
    (h : (commit g kernels strategy : Pass σ π AllocationError Tables).exec s = (.ok tables, s')) :
    ∃ s₁ s₂ s₃ s₄ s₅ s₆ s₇ rows lifetimes vars spans,
      (reserve .tail (g.operators.length * OpRow.layout.size) .allocatorInternal :
        Pass σ π AllocationError Nat).exec s.rewind = (.ok tables.operators, s₁) ∧
      (prepareAll g (g.operators.zip kernels) 0 0).exec s₁ = (.ok (rows, lifetimes), s₂) ∧
      (reserve .tail (g.tensors.length * Span.layout.size) .evalTensorData).exec s₂ =
        (.ok tables.tensors, s₃) ∧
      (g.tensors.mapM reserveVariable).exec s₃ = (.ok vars, s₄) ∧
      (placeActivations g strategy vars).exec s₄ = (.ok spans, s₅) ∧
      (placeScratch g strategy lifetimes).exec s₅ = (.ok tables.scratch, s₆) ∧
      (commitTable OpRow.layout tables.operators rows).exec s₆ = (.ok (), s₇) ∧
      (commitTable Span.layout tables.tensors spans).exec s₇ = (.ok (), s') := by
  unfold commit at h
  obtain ⟨_, s₀, hrewind, h₀⟩ := exec_bind_ok h
  cases hrewind
  obtain ⟨operators, s₁, hoperators, h₁⟩ := exec_bind_ok h₀
  obtain ⟨⟨rows, lifetimes⟩, s₂, hprepare, h₂⟩ := exec_bind_ok h₁
  obtain ⟨tensors, s₃, htensors, h₃⟩ := exec_bind_ok h₂
  obtain ⟨vars, s₄, hvars, h₄⟩ := exec_bind_ok h₃
  obtain ⟨spans, s₅, hactivations, h₅⟩ := exec_bind_ok h₄
  obtain ⟨scratch, s₆, hscratch, h₆⟩ := exec_bind_ok h₅
  obtain ⟨_, s₇, hrows, h₇⟩ := exec_bind_ok h₆
  obtain ⟨_, s₈, hspans, h₈⟩ := exec_bind_ok h₇
  obtain ⟨rfl, rfl⟩ := exec_pure_ok h₈
  exact ⟨s₁, s₂, s₃, s₄, s₅, s₆, s₇, rows, lifetimes, vars, spans, hoperators, hprepare, htensors,
    hvars, hactivations, hscratch, hrows, hspans⟩

end Pass

/-- What an interpreter holds after its pass, with the offsets and lengths that were granted: the
persistent data of each operator, the block of each variable, and the blocks of its plans. -/
structure Holdings where
  persistent : List (Option ByteRange)
  vars : List (Option ByteRange)
  activations : Home
  scratch : Option Home

namespace Holdings

/-- The blocks of a pass, in the order they were granted in. -/
def blocks (h : Holdings) (tables : Tables) : List Block :=
  [.aligned .tail (Memory.tableRange OpRow.layout tables.operators h.persistent.length)] ++
    h.persistent.flatMap Block.held ++
    [.aligned .tail (Memory.tableRange Span.layout tables.tensors h.vars.length)] ++
    h.vars.flatMap Block.held ++
    (if 0 < h.activations.plan.peak then [.aligned .tail h.activations.range] else []) ++
    Pass.scratchBlocks tables.scratch h.scratch

/-- What a pass from one site to another was granted. -/
structure Reserved (h : Holdings) (g : Graph) (kernels : List (Kernel σ)) (strategy : Strategy)
    (s s' : Site σ π) (tables : Tables) : Prop where
  gains : s.Gains (h.blocks tables) s'
  persistent : h.persistent = (Pass.kernelGrants g kernels s).map Grant.userData
  vars : Pass.Variables g.tensors h.vars
  activations : ∃ room, strategy.place g.lifetimes arenaAlignment room = .ok h.activations.plan
  /-- A plan without bytes takes no block, and lies at the start of the arena. -/
  base_eq : h.activations.plan.peak = 0 → h.activations.base = 0
  scratch : (h.scratch = none ↔ Pass.grantLifetimes 0 (Pass.kernelGrants g kernels s) = []) ∧
    ∀ home, h.scratch = some home → ∃ room,
      strategy.place (Pass.grantLifetimes 0 (Pass.kernelGrants g kernels s)) arenaAlignment room =
        .ok home.plan

/-- What a pass wrote for its holdings: the scratch table first, into the memory `m`, and then the two
other tables. -/
structure Written (h : Holdings) (tables : Tables) (rows : List OpRow) (spans : List Span)
    (m m' : Memory) : Prop where
  spans_eq : Pass.enterSpans h.activations.base (h.vars.map Pass.rangeSpan)
    h.activations.plan.placements = .ok spans
  scratch : ∀ home, h.scratch = some home → ∃ rows,
    home.plan.placements.mapM (Pass.placedSpan home.base) = .ok rows ∧
      m.HasTable Span.layout tables.scratch rows
  memory_eq : m' = (m.write tables.operators (rows.flatMap OpRow.layout.encode)).write tables.tensors
    (spans.flatMap Span.layout.encode)
  tensors : m'.HasTable Span.layout tables.tensors spans

end Holdings

namespace Pass

variable {s s' : Site σ π}

theorem Variables.length_eq {ts : List Tensor} {vars : List (Option ByteRange)}
    (h : Variables ts vars) : vars.length = ts.length := by
  simpa using congrArg List.length h.sizes

/-- Each stage takes its own blocks, and all of them together are the blocks of the pass. -/
theorem commit_reserves (hs : s.Sound) {g : Graph} {kernels : List (Kernel σ)}
    (hkernels : kernels.length = g.operators.length) {strategy : Strategy} (hsound : strategy.Sound)
    {tables : Tables}
    (h : (commit g kernels strategy : Pass σ π AllocationError Tables).exec s = (.ok tables, s')) :
    ∃ (holdings : Holdings) (spans : List Span) (m : Memory),
      holdings.Reserved g kernels strategy s s' tables ∧
        holdings.Written tables (grantRows 0 (kernelGrants g kernels s)) spans m s'.memory := by
  obtain ⟨s₁, s₂, s₃, s₄, s₅, s₆, s₇, rows, lifetimes, varSpans, spans, h₁, h₂, h₃, h₄, h₅, h₆,
    h₇, h₈⟩ := commit_stages h
  obtain ⟨hsince, -, hbefore⟩ := (reserve_tail_runs (Site.Since.rewind hs).sound _ _).of_ok h₁
  obtain rfl : beforeKernels g s = s₁ := hbefore
  obtain ⟨-, hprepared, -, -, hanswer⟩ := (prepareAll_runs hsince.sound g _ 0 0).of_ok h₂
  obtain ⟨rfl, rfl⟩ : rows = grantRows 0 (kernelGrants g kernels s) ∧
      lifetimes = grantLifetimes 0 (kernelGrants g kernels s) := Prod.mk.inj hanswer
  obtain ⟨vars, hvarBlocks, rfl, hvars⟩ := reserveVariables_gains h₄
  obtain ⟨activations, hplace, hactivations, hbase, henter⟩ := placeActivations_gains h₅
  obtain ⟨scratch, hscratchBlocks, hnone, hscratch⟩ := placeScratch_gains hsound h₆
  obtain ⟨rfl, -⟩ := commitTable_ok OpRow.layout_lawful h₇
  obtain ⟨rfl, hheld⟩ := commitTable_ok Span.layout_lawful h₈
  have hlength : (kernelGrants g kernels s).length = g.operators.length := by
    rw [kernelGrants, List.length_map, hprepared, List.length_zip, hkernels, Nat.min_self]
  have hoperators : s.Gains [.aligned .tail (Memory.tableRange OpRow.layout tables.operators
      ((kernelGrants g kernels s).map Grant.userData).length)] (beforeKernels g s) := by
    rw [List.length_map, hlength]
    exact ⟨(reserve_gains h₁).granted_eq, (reserve_gains h₁).aligned⟩
  have hpersistent : (beforeKernels g s).Gains
      (((kernelGrants g kernels s).map Grant.userData).flatMap Block.held) s₂ := by
    rw [kernelGrants, List.flatMap_map, List.flatMap_map]
    exact prepareAll_gains h₂
  have htensors : s₂.Gains [.aligned .tail (Memory.tableRange Span.layout tables.tensors
      vars.length)] s₃ := by
    rw [hvars.length_eq]
    exact reserve_gains h₃
  have hall := ((((hoperators.trans hpersistent).trans htensors).trans hvarBlocks).trans
    hactivations).trans hscratchBlocks
  refine ⟨⟨(kernelGrants g kernels s).map Grant.userData, vars, activations, scratch⟩, spans,
    s₆.memory, ?_, ?_⟩
  · exact ⟨hall.before rfl, rfl, hvars, hplace, hbase, hnone, fun home hhome =>
      (hscratch home hhome).1⟩
  · refine ⟨henter, fun home hhome => (hscratch home hhome).2, ?_, hheld⟩
    rw [Site.memory_mapMemory, Site.memory_mapMemory]

end Pass

end TensorArena
