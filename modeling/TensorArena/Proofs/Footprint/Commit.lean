import TensorArena.Proofs.Footprint.Requests
import TensorArena.Proofs.Interpreter.Placing
import TensorArena.Proofs.Plan.Reserved

/-!
# The demand of the allocation pass

Each step of the pass has an exact demand: a block for each table and each variable, a block for all
activations and one for all scratch blocks, as large as the peak of their plans. A strategy sees the
capacity only as a limit, so the peaks are those of plans without a limit. Tables are written at the
end, into blocks that were reserved for them, and that cannot fail. `commit_exact` puts the steps
together.
-/

namespace TensorArena

variable {σ π : Type}

/-- All buffers of a plan end within the reach of 32-bit words when they lie from `base` on. -/
def Plan.Numbered (p : Plan) (base : Nat) : Prop :=
  ∀ q ∈ p.placements, base + q.stop ≤ Word.max32

/-- The plan of a strategy, whatever room there is. -/
def Strategy.unlimited (s : Strategy) (lifetimes : List Lifetime) : Except PlanError Plan :=
  s.place lifetimes arenaAlignment Word.max

namespace Demand

/-- What reserving a tensor takes: a block of its own for a variable. -/
def tensor (t : Tensor) : Demand :=
  if t.isVariable then spanned t.size else none

/-- Where the block of planned activations starts. -/
def home (peak tail : Nat) : Nat :=
  if 0 < peak then tail - alignUp peak arenaAlignment else 0

/-- What placing activations takes. -/
def activations (s : Strategy) (lifetimes : List Lifetime) : Demand :=
  match s.unlimited lifetimes with
  | .error _ => never
  | .ok p => { block p.peak with fits := fun tail => p.Numbered (home p.peak tail) }

/-- What placing scratch blocks takes at the head. -/
def scratchBlock (s : Strategy) (lifetimes : List Lifetime) : Demand :=
  match s.unlimited lifetimes with
  | .error _ => never
  | .ok p => ⟨p.peak, 0, fun _ => p.Numbered 0, Nat.dvd_zero _⟩

/-- What placing scratch blocks takes: a table at the tail, and their bytes at the head. -/
def scratch (s : Strategy) (lifetimes : List Lifetime) : Demand :=
  if lifetimes.isEmpty then none
  else (block (lifetimes.length * Span.layout.size)).andThen (scratchBlock s lifetimes)

theorem head_tensor (t : Tensor) : (tensor t).head = 0 := by
  unfold tensor
  split
  · rfl
  · rfl

theorem tensor_moves (t : Tensor) : (tensor t).Moves := by
  unfold tensor
  split
  · exact spanned_moves _
  · exact none_moves

theorem head_activations (s : Strategy) (lifetimes : List Lifetime) :
    (activations s lifetimes).head = 0 := by
  unfold activations
  split
  · rfl
  · rfl

theorem activations_moves {s : Strategy} (hs : s.Uniform) (lifetimes : List Lifetime) :
    (activations s lifetimes).Moves := by
  unfold activations
  split
  · exact never_moves
  · rename_i p hp
    intro _ tail hnumbered hle hreach q hq
    simp only [block] at hle
    have hround : p.peak ≤ alignUp p.peak arenaAlignment := le_alignUp (by decide) _
    have hmax : Word.max32 < Word.max := by decide
    -- 32-bit words reach the end, so it was not cut off.
    have hlt : q.stop < Word.max := by
      have := hnumbered q hq
      omega
    have hstop := (hs.sound _ _ _ _ hp).stop_le q hq hlt
    unfold home
    split
    · omega
    · omega

theorem scratch_moves (s : Strategy) (lifetimes : List Lifetime) : (scratch s lifetimes).Moves := by
  unfold scratch
  split
  · exact none_moves
  · refine (block_moves _).andThen ?_
    unfold scratchBlock
    split
    · exact never_moves
    · exact fun _ _ h _ _ => h

end Demand

namespace Pass

variable {capacity : Nat}

/-! ## Variables -/

theorem reserveVariable_takes (t : Tensor) :
    (reserveVariable t : Pass σ π AllocationError Span).Takes capacity (.tensor t)
      fun _ => True := by
  intro s hs hrewound _
  unfold reserveVariable Demand.tensor
  split
  · refine ((reserve_tail_exact hs hrewound _ _).mono (fun _ _ h => h) fun _ _ hunmet hmet => ?_).bind
      fun offset s₁ ⟨hmet, hmoved, hoffset⟩ => .modify_bind ?_
    · exact hunmet ⟨trivial, hmet.2⟩
    · subst hoffset
      refine .of_lift (fun span hspan => ⟨?_, ?_, trivial⟩) fun e he hall => ?_
      · exact (Demand.met_spanned_iff hmoved).mpr ⟨hmet, (Span.make_ok hspan).2.2⟩
      · rw [Site.arena_mapMemory]
        exact hmoved.spanned.withMemory (Memory.size_write ..)
      · have hreach := ((Demand.met_spanned_iff hmoved).mp hall).2
        cases he.symm.trans (Span.make_eq_ok hreach)
  · exact .of_pure ⟨Demand.met_none hs, Demand.moved_none hrewound rfl rfl, trivial⟩

theorem reserveVariables_takes (ts : List Tensor) :
    (ts.mapM reserveVariable : Pass σ π AllocationError (List Span)).Takes capacity
      (.all (ts.map Demand.tensor)) fun spans => spans.length = ts.length := by
  induction ts with
  | nil => exact .of_pure rfl
  | cons t rest ih =>
    rw [List.mapM_cons, List.map_cons, Demand.all, List.foldr_cons]
    refine (reserveVariable_takes t).bind (Demand.head_tensor t) fun span _ => ?_
    exact ih.bind_pure fun spans hlength => by rw [List.length_cons, List.length_cons, hlength]

/-! ## Activations -/

theorem plan_exact {strategy : Strategy} (hs : strategy.Uniform) (lifetimes : List Lifetime)
    (room : Nat) (s : Site σ π) :
    (plan strategy lifetimes room : Pass σ π AllocationError Plan).Runs s
      (fun p s' => strategy.unlimited lifetimes = .ok p ∧ p.peak ≤ room ∧ s'.arena = s.arena)
      (fun _ _ => ∀ p, strategy.unlimited lifetimes = .ok p → ¬ p.peak ≤ room) := by
  unfold plan
  refine .lift_bind (fun p hp => ?_) fun e he p hp hle => ?_
  · cases hplace : strategy.place lifetimes arenaAlignment room with
    | error e =>
      rw [hplace] at hp
      cases hp
    | ok q =>
      rw [hplace] at hp
      cases hp
      obtain ⟨hunlimited, hle⟩ := (hs.place_iff ..).mp hplace
      split
      · exact .note_bind (.of_pure ⟨hunlimited, hle, rfl⟩)
      · exact .of_pure ⟨hunlimited, hle, rfl⟩
  · rw [(hs.place_iff ..).mpr ⟨hp, hle⟩] at he
    cases he

theorem placedSpan_ok_iff {base : Nat} {q : Placement} :
    (∃ span, placedSpan base q = .ok span) ↔ base + q.stop ≤ Word.max32 := by
  rw [Placement.stop, ← Nat.add_assoc]
  constructor
  · intro h
    obtain ⟨_, hmake⟩ := h
    exact (Span.make_ok hmake).2.2
  · intro h
    exact ⟨_, Span.make_eq_ok h⟩

theorem enterSpans_ok_iff {base : Nat} {spans : List Span} {ps : List Placement}
    (htensor : ∀ q ∈ ps, ∃ id, q.lifetime.buffer = .tensor id) :
    (∃ spans', enterSpans base spans ps = .ok spans') ↔ ∀ q ∈ ps, base + q.stop ≤ Word.max32 := by
  induction ps generalizing spans with
  | nil => exact iff_of_true ⟨_, rfl⟩ nofun
  | cons q rest ih =>
    obtain ⟨⟨id, hid⟩, hrest⟩ := List.forall_mem_cons.mp htensor
    rw [List.forall_mem_cons, ← placedSpan_ok_iff, enterSpans, hid]
    dsimp only
    cases placedSpan base q with
    | error e => exact iff_of_false nofun fun h => nomatch h.1
    | ok span => exact (ih hrest).trans (and_iff_right ⟨_, rfl⟩).symm

theorem length_of_enterSpans {base : Nat} {spans spans' : List Span} {ps : List Placement}
    (h : enterSpans base spans ps = .ok spans') : spans'.length = spans.length := by
  induction ps generalizing spans with
  | nil =>
    cases h
    rfl
  | cons q rest ih =>
    unfold enterSpans at h
    split at h
    · exact ih h
    · split at h
      · exact (ih h).trans List.length_set
      · cases h

theorem tensor_of_plan {strategy : Strategy} (hs : strategy.Uniform) {g : Graph} {p : Plan}
    (hp : strategy.unlimited g.lifetimes = .ok p) :
    ∀ q ∈ p.placements, ∃ id, q.lifetime.buffer = .tensor id := by
  intro q hq
  have hmem : q.lifetime ∈ g.lifetimes := by
    rw [← (hs.sound _ _ _ _ hp).lifetimes_eq]
    exact List.mem_map_of_mem hq
  obtain ⟨id, hid⟩ := Graph.mem_lifetimes.mp hmem
  exact ⟨id, hid.buffer_eq⟩

theorem Runs.ite_bind {ε α β : Type} {c : Prop} [Decidable c] {p q : Pass σ π ε α}
    {f : α → Pass σ π ε β} {s : Site σ π} {ok : β → Site σ π → Prop} {err : ε → Site σ π → Prop}
    (h : ((if c then p else q) >>= f).Runs s ok err) :
    (if c then p >>= f else q >>= f).Runs s ok err := by
  split
  · rwa [if_pos ‹_›] at h
  · rwa [if_neg ‹_›] at h

/-- The block for planned activations, which is left out when they hold no bytes. -/
theorem home_exact {s : Site σ π} (hs : s.arena.Steady) (hrewound : s.arena.head = 0) (peak : Nat)
    (category : Category) :
    (if 0 < peak then reserve .tail peak category else Pure.pure 0 :
        Pass σ π AllocationError Nat).Runs s
      (fun base s' => (Demand.block peak).Met s.arena ∧
        (Demand.block peak).Moved s.arena s'.arena ∧ base = Demand.home peak s.arena.tail)
      (fun _ _ => ¬ (Demand.block peak).Met s.arena) := by
  unfold Demand.home
  split
  · refine (reserve_tail_exact hs hrewound peak category).mono ?_ fun _ _ h => h
    rintro base s' ⟨hmet, hmoved, rfl⟩
    exact ⟨hmet, hmoved, hmoved.tail_eq⟩
  · rename_i hpeak
    obtain rfl := Nat.eq_zero_of_not_pos hpeak
    exact .of_pure ⟨Demand.met_none hs, Demand.moved_none hrewound rfl rfl, rfl⟩

theorem met_activations_iff {strategy : Strategy} {lifetimes : List Lifetime} {p : Plan}
    (hp : strategy.unlimited lifetimes = .ok p) (a : Arena) :
    (Demand.activations strategy lifetimes).Met a ↔
      (Demand.block p.peak).Met a ∧ p.Numbered (Demand.home p.peak a.tail) := by
  rw [Demand.activations, hp]
  exact ⟨fun ⟨hfits, hroom⟩ => ⟨⟨trivial, hroom⟩, hfits⟩, fun ⟨⟨_, hroom⟩, hfits⟩ => ⟨hfits, hroom⟩⟩

theorem moved_activations {strategy : Strategy} {lifetimes : List Lifetime} {p : Plan}
    (hp : strategy.unlimited lifetimes = .ok p) {a a' : Arena}
    (h : (Demand.block p.peak).Moved a a') : (Demand.activations strategy lifetimes).Moved a a' := by
  rw [Demand.activations, hp]
  exact ⟨h.capacity_eq, h.head_eq, h.watermark_eq, h.tail_eq⟩

theorem placeActivations_takes {strategy : Strategy} (hs : strategy.Uniform) (g : Graph)
    (spans : List Span) :
    (placeActivations g strategy spans : Pass σ π AllocationError (List Span)).Takes capacity
      (.activations strategy g.lifetimes) fun spans' => spans'.length = spans.length := by
  intro s hsteady hrewound _
  have hroom : s.store.capacity - s.store.used = s.arena.tail - s.arena.watermark := by
    have h₁ := hsteady.kept.watermark_le
    have h₂ := hsteady.kept.tail_le
    change s.arena.capacity - (s.arena.watermark + (s.arena.capacity - s.arena.tail)) = _
    omega
  unfold placeActivations
  refine .get_bind ?_
  rw [hroom]
  refine ((plan_exact hs _ _ s).mono (fun _ _ h => h) ?_).bind fun p s₁ ⟨hp, hpeak, harena⟩ => ?_
  · intro e s₁ hunmet hmet
    cases hp : strategy.unlimited g.lifetimes with
    | error e =>
      rw [Demand.activations, hp] at hmet
      exact hmet.1
    | ok p =>
      have hround : p.peak ≤ alignUp p.peak arenaAlignment := le_alignUp (by decide) _
      have hblock := Demand.met_block_iff.mp ((met_activations_iff hp _).mp hmet).1
      exact hunmet p hp (by omega)
  · rw [← harena] at hsteady hrewound ⊢
    have hall := met_activations_iff hp s₁.arena
    refine .ite_bind (((home_exact hsteady hrewound p.peak _).mono (fun _ _ h => h)
      fun _ _ hunmet hmet => hunmet (hall.mp hmet).1).bind fun base s₂ ⟨hmet, hmoved, hbase⟩ => ?_)
    subst hbase
    have hnumbered : (∃ spans', enterSpans (Demand.home p.peak s₁.arena.tail) spans p.placements =
        .ok spans') ↔ p.Numbered (Demand.home p.peak s₁.arena.tail) :=
      enterSpans_ok_iff (tensor_of_plan hs hp)
    refine .lift_bind (fun spans' hspans => .note_bind (.of_pure ⟨?_, ?_, ?_⟩)) fun e he hmet' => ?_
    · exact hall.mpr ⟨hmet, hnumbered.mp ⟨spans', hspans⟩⟩
    · exact moved_activations hp hmoved
    · exact length_of_enterSpans hspans
    · obtain ⟨spans', hspans⟩ := hnumbered.mpr (hall.mp hmet').2
      cases he.symm.trans hspans

/-! ## Tables -/

/-- On every arena of the capacity the pass succeeds and leaves the positions where they are, and
`result` holds of its answer. -/
def Stays {ε α : Type} (capacity : Nat) (p : Pass σ π ε α) (result : α → Prop) : Prop :=
  ∀ s : Site σ π, s.arena.capacity = capacity →
    p.Runs s (fun a s' => (∃ m, m.size = capacity ∧ s'.arena = { s.arena with memory := m }) ∧
      result a) fun _ _ => False

theorem Stays.of_pure {ε α : Type} {a : α} {result : α → Prop} (h : result a) :
    (Pure.pure a : Pass σ π ε α).Stays capacity result :=
  fun s hs => .of_pure ⟨⟨s.memory, hs, rfl⟩, h⟩

theorem Stays.note_bind {ε α : Type} {level : Level} {text : String} {f : Unit → Pass σ π ε α}
    {result : α → Prop} (h : (f ()).Stays capacity result) :
    ((note level text : Pass σ π ε Unit) >>= f).Stays capacity result :=
  fun s hs => .note_bind (h (s.note level text) hs)

/-- What leaves the positions alone adds nothing to a demand. -/
theorem Takes.bind_stays {ε α β : Type} {p : Pass σ π ε α} {f : α → Pass σ π ε β} {d : Demand}
    {mid : α → Prop} {result : β → Prop} (hp : p.Takes capacity d mid)
    (hf : ∀ a, mid a → (f a).Stays capacity result) : (p >>= f).Takes capacity d result := by
  intro s hs hrewound hcapacity
  refine (hp s hs hrewound hcapacity).bind fun a s₁ ⟨hmet, hmoved, ha⟩ => ?_
  refine (hf a ha s₁ (hmoved.capacity_eq.trans hcapacity)).mono ?_ fun _ _ h => h.elim
  rintro b s₂ ⟨⟨m, hsize, harena⟩, hb⟩
  refine ⟨hmet, ?_, hb⟩
  rw [harena]
  exact hmoved.withMemory ((hsize.trans hcapacity.symm).trans hmoved.capacity_eq.symm)

theorem commitTable_bind_stays {α β : Type} {layout : Layout α} (hl : layout.Lawful) {table : Nat}
    {rows : List α} (hfit : table + rows.length * layout.size ≤ capacity)
    {f : Unit → Pass σ π AllocationError β} {result : β → Prop} (h : (f ()).Stays capacity result) :
    ((commitTable layout table rows : Pass σ π AllocationError Unit) >>= f).Stays capacity result := by
  intro s hs
  have hwrite : (commitTable layout table rows : Pass σ π AllocationError Unit).Runs s
      (fun _ s' => s' = s.mapMemory fun m => m.write table (rows.flatMap layout.encode))
      fun _ _ => False := by
    unfold Runs exec commitTable changeMemory
    simp only [ExceptT.run_mk, StateT.run, Memory.writeTable]
    have hroom : table + (rows.flatMap layout.encode).length ≤ s.store.memory.size := by
      rw [Layout.length_flatMap_encode hl]
      exact Nat.le_trans hfit (Nat.le_of_eq hs.symm)
    rw [if_pos hroom]
    exact mapMemory_const s fun m => m.write table (rows.flatMap layout.encode)
  refine hwrite.bind ?_
  rintro ⟨⟩ s₁ rfl
  refine (h _ ?_).mono ?_ fun _ _ h => h
  · rw [Site.arena_mapMemory]
    exact (Memory.size_write ..).trans hs
  · rintro b s₂ ⟨⟨m, hsize, harena⟩, hb⟩
    rw [Site.arena_mapMemory] at harena
    exact ⟨⟨m, hsize, harena⟩, hb⟩

/-! ## Scratch blocks -/

theorem mapM_ok_iff {ε α β : Type} {f : α → Except ε β} {l : List α} :
    (∃ r, l.mapM f = .ok r) ↔ ∀ a ∈ l, ∃ b, f a = .ok b := by
  induction l with
  | nil => exact iff_of_true ⟨_, rfl⟩ nofun
  | cons a rest ih =>
    rw [List.forall_mem_cons, ← ih, List.mapM_cons]
    cases f a with
    | error e => exact iff_of_false nofun fun h => nomatch h.1
    | ok b =>
      cases rest.mapM f with
      | error e => exact iff_of_false nofun fun h => nomatch h.2
      | ok bs => exact iff_of_true ⟨_, rfl⟩ ⟨⟨_, rfl⟩, ⟨_, rfl⟩⟩

theorem met_scratchBlock_iff {strategy : Strategy} {lifetimes : List Lifetime} {p : Plan}
    (hp : strategy.unlimited lifetimes = .ok p) {a : Arena} (ha : a.Steady) :
    (Demand.scratchBlock strategy lifetimes).Met a ↔ p.Numbered 0 ∧ p.peak ≤ a.tail := by
  have hmark : a.watermark ≤ a.tail := ha.kept.watermark_le
  rw [Demand.scratchBlock, hp]
  exact and_congr_right fun _ => and_iff_right hmark

theorem writeScratch_stays {table : Nat} {rows : List Span}
    (hfit : table + rows.length * Span.layout.size ≤ capacity) (text : String) :
    (do
      commitTable Span.layout table rows
      note .debug text
      pure table : Pass σ π AllocationError Nat).Stays capacity fun _ => True :=
  commitTable_bind_stays Span.layout_lawful hfit (.note_bind (.of_pure trivial))

/-- Places the scratch blocks once their table is reserved. -/
def placeScratchBlock (g : Graph) (strategy : Strategy) (lifetimes : List Lifetime) (table : Nat) :
    Pass σ π AllocationError Nat := do
  let s ← get
  let p ← plan strategy lifetimes (s.store.capacity - s.store.tailUsed)
  let base ← reserve .head p.peak .scratchBufferRequests
  let rows ← liftExcept (p.placements.mapM (placedSpan base))
  commitTable Span.layout table rows
  note .debug s!"'{g.name}' scratch: {p.summary}"
  pure table

theorem placeScratchBlock_takes {strategy : Strategy} (hs : strategy.Uniform) (g : Graph)
    {lifetimes : List Lifetime} {table : Nat}
    (htable : table + lifetimes.length * Span.layout.size ≤ capacity) :
    (placeScratchBlock g strategy lifetimes table : Pass σ π AllocationError Nat).Takes capacity
      (.scratchBlock strategy lifetimes) fun _ => True := by
  intro s hsteady hrewound hcapacity
  unfold placeScratchBlock
  have hroom : s.store.capacity - s.store.tailUsed = s.arena.tail := by
    have := hsteady.kept.tail_le
    change s.arena.capacity - (s.arena.capacity - s.arena.tail) = _
    omega
  refine .get_bind ?_
  rw [hroom]
  refine ((plan_exact hs lifetimes s.arena.tail s).mono (fun _ _ h => h) ?_).bind
    fun p s₁ ⟨hp, hpeak, harena⟩ => ?_
  · intro e s₁ hunmet hmet
    cases hp : strategy.unlimited lifetimes with
    | error e =>
      rw [Demand.scratchBlock, hp] at hmet
      exact hmet.1
    | ok p => exact hunmet p hp ((met_scratchBlock_iff hp hsteady).mp hmet).2
  · have hmet := met_scratchBlock_iff hp hsteady
    rw [← harena] at hrewound hpeak
    refine ((reserve_head_exact hrewound p.peak _).mono (fun _ _ h => h) fun _ _ hfull =>
      absurd hpeak hfull).bind fun base s₂ ⟨_, hbase, harena'⟩ => ?_
    subst hbase
    have hnumbered : (∃ rows, p.placements.mapM (placedSpan 0) = .ok rows) ↔ p.Numbered 0 :=
      mapM_ok_iff.trans (forall₂_congr fun _ _ => placedSpan_ok_iff)
    rw [harena] at harena' hpeak
    refine .lift_bind (fun rows hrows => ?_) fun e he hall => ?_
    · have hlength : rows.length = lifetimes.length := by
        rw [(mapM_ok hrows).1, ← (hs.sound _ _ _ _ hp).lifetimes_eq, List.length_map]
      rw [← hlength] at htable
      have hcapacity₂ : s₂.arena.capacity = capacity := by
        rw [harena']
        exact hcapacity
      refine (writeScratch_stays htable _ s₂ hcapacity₂).mono ?_ fun _ _ h => h.elim
      rintro _ s₃ ⟨⟨m, hsize, harena₃⟩, -⟩
      refine ⟨hmet.mpr ⟨hnumbered.mp ⟨rows, hrows⟩, hpeak⟩, ?_, trivial⟩
      rw [harena₃, harena', Demand.scratchBlock, hp]
      exact ⟨hsize.trans hcapacity.symm, rfl, rfl, rfl⟩
    · obtain ⟨rows, hrows⟩ := hnumbered.mpr (hmet.mp hall).1
      cases he.symm.trans hrows

theorem placeScratch_takes {strategy : Strategy} (hs : strategy.Uniform) (g : Graph)
    (lifetimes : List Lifetime) :
    (placeScratch g strategy lifetimes : Pass σ π AllocationError Nat).Takes capacity
      (.scratch strategy lifetimes) fun _ => True := by
  unfold placeScratch Demand.scratch
  split
  · exact .of_pure trivial
  · exact (reserve_tail_takes _ _).bind rfl fun table htable => placeScratchBlock_takes hs g htable

end Pass

/-! ## The whole pass -/

/-- Where the head stood does not matter to what follows a rewind. -/
theorem Pass.Takes.runs_rewind {ε α : Type} {p : Pass σ π ε α} {d : Demand} {s : Site σ π}
    (h : p.Takes s.arena.capacity d fun _ => True) (hs : s.arena.Steady) :
    p.Runs s.rewind (fun _ s' => d.Met s.arena ∧ d.Moved s.arena s'.arena)
      (fun _ _ => ¬ d.Met s.arena) := by
  have harena : s.rewind.arena = s.arena.resetHead := s.store.arena_resetHead
  have hsteady : s.rewind.arena.Steady := by
    rw [harena]
    exact hs.resetHead
  have hrewound : s.rewind.arena.head = 0 := by
    rw [harena]
    rfl
  have hcapacity : s.rewind.arena.capacity = s.arena.capacity := by
    rw [harena]
    rfl
  refine (h s.rewind hsteady hrewound hcapacity).mono ?_ ?_
  · rintro _ s' ⟨hmet, hmoved, -⟩
    rw [harena] at hmet hmoved
    exact ⟨hmet, hmoved.capacity_eq, hmoved.head_eq, hmoved.watermark_eq, hmoved.tail_eq⟩
  · intro _ s' hunmet
    rw [harena] at hunmet
    exact hunmet

/-- Everything that the pass takes for a graph whose kernels make these requests. -/
def Demand.commit (g : Graph) (s : Strategy) (rs : List Requests) : Demand :=
  (block (g.operators.length * OpRow.layout.size)).andThen <|
  (all (rs.map Requests.demand)).andThen <|
  (block (g.tensors.length * Span.layout.size)).andThen <|
  (all (g.tensors.map tensor)).andThen <|
  (activations s g.lifetimes).andThen <|
  scratch s (Requests.lifetimes 0 rs)

theorem Demand.commit_moves {s : Strategy} (hs : s.Uniform) (g : Graph) (rs : List Requests) :
    (commit g s rs).Moves := by
  have hrequests : ∀ d ∈ rs.map Requests.demand, d.Moves :=
    List.forall_mem_map.mpr fun r _ => r.demand_moves
  have htensors : ∀ d ∈ g.tensors.map tensor, d.Moves :=
    List.forall_mem_map.mpr fun t _ => tensor_moves t
  exact (block_moves _).andThen <| (all_moves hrequests).andThen <| (block_moves _).andThen <|
    (all_moves htensors).andThen <| (activations_moves hs _).andThen (scratch_moves _ _)

namespace Pass

/-- The pass succeeds where its demand is met and only there, and it moves the positions of the arena
by that demand, wherever the head was. -/
theorem commit_exact {g : Graph} {strategy : Strategy} (hs : strategy.Uniform)
    {kernels : List (Kernel σ)} {rs : List Requests}
    (h : List.Forall₂ (fun p r => (p.2.prepare (.of g p.1)).Makes r) (g.operators.zip kernels) rs)
    {s : Site σ π} (hsteady : s.arena.Steady) :
    (commit g kernels strategy : Pass σ π AllocationError Tables).Runs s
      (fun _ s' => (Demand.commit g strategy rs).Met s.arena ∧
        (Demand.commit g strategy rs).Moved s.arena s'.arena)
      (fun _ _ => ¬ (Demand.commit g strategy rs).Met s.arena) := by
  have hrequests : (Demand.all (rs.map Requests.demand)).head = 0 :=
    Demand.head_all (List.forall_mem_map.mpr fun r _ => r.head_demand)
  have htensors : (Demand.all (g.tensors.map Demand.tensor)).head = 0 :=
    Demand.head_all (List.forall_mem_map.mpr fun t _ => Demand.head_tensor t)
  unfold commit
  -- Behind the first step the head is rewound, and the demands of the steps add up.
  refine .modify_bind (Takes.runs_rewind ?_ hsteady)
  refine (reserve_tail_takes _ _).bind rfl fun operators hoperators => ?_
  refine (prepareAll_takes h 0 0).bind hrequests ?_
  rintro ⟨rows, lifetimes⟩ ⟨hrows, rfl⟩
  refine (reserve_tail_takes _ _).bind rfl fun tensors htable => ?_
  refine (reserveVariables_takes _).bind htensors fun spans hspans => ?_
  refine (placeActivations_takes hs _ _).bind (Demand.head_activations _ _) fun spans' hspans' => ?_
  refine (placeScratch_takes hs _ _).bind_stays fun scratch _ => ?_
  have hcount : rows.length ≤ g.operators.length := by
    rw [hrows, List.length_zip]
    exact Nat.min_le_left ..
  refine commitTable_bind_stays OpRow.layout_lawful ?_ (commitTable_bind_stays Span.layout_lawful
    ?_ (.of_pure trivial))
  · exact Nat.le_trans (Nat.add_le_add_left (Nat.mul_le_mul_right _ hcount) _) hoperators
  · rw [hspans', hspans]
    exact htable

end Pass

end TensorArena
