import TensorArena.Proofs.Graph.Lifetimes
import TensorArena.Proofs.Interpreter.Prepare

/-!
# Placing tensors and scratch blocks

Every variable gets a zeroed block of its own. Activations share one block, and scratch blocks
another one, as their plans say: what the strategy promises about offsets in a plan becomes a promise
about ranges of the arena, because every span that was entered ends within the reach of 32-bit words.
-/

namespace TensorArena

variable {σ π : Type}

/-- Members of a list whose pairs are related either way round. -/
theorem rel_of_mem_of_pairwise {R : α → α → Prop} {l : List α} (symm : ∀ a b, R a b → R b a)
    (h : l.Pairwise R) {a b : α} (ha : a ∈ l) (hb : b ∈ l) (hne : a ≠ b) : R a b := by
  refine List.Pairwise.forall_of_forall_of_flip (R := fun a b => a ≠ b → R a b)
    (fun _ _ hne => absurd rfl hne) (h.imp ?_) (h.imp ?_) ha hb hne
  · intro a b hr _
    exact hr
  · intro a b hr _
    exact symm a b hr

/-- Entries of a list whose pairs are related either way round. -/
theorem rel_of_getElem?_of_pairwise {R : α → α → Prop} {l : List α}
    (symm : ∀ a b, R a b → R b a) (h : l.Pairwise R) {i j : Nat} {a b : α} (ha : l[i]? = some a)
    (hb : l[j]? = some b) (hne : i ≠ j) : R a b := by
  obtain ⟨hi, rfl⟩ := List.getElem?_eq_some_iff.mp ha
  obtain ⟨hj, rfl⟩ := List.getElem?_eq_some_iff.mp hb
  rw [List.pairwise_iff_getElem] at h
  rcases Nat.lt_or_gt_of_ne hne with hlt | hlt
  · exact h i j hi hj hlt
  · exact symm _ _ (h j i hj hi hlt)

namespace Pass

/-! ## Variables -/

/-- What a tensor gets when variables are reserved in a stretch. -/
structure VariableSpan (k : Stretch) (t : Tensor) (span : Span) : Prop where
  unplaced : t.isVariable = false → span = .unplaced
  length_eq : t.isVariable = true → span.range.length = t.size
  took : t.isVariable = true → k.Took span.range

theorem VariableSpan.mono {k k' : Stretch} {t : Tensor} {span : Span} (h : VariableSpan k t span)
    (hk : k.Within k') : VariableSpan k' t span :=
  ⟨h.unplaced, h.length_eq, fun hv => (h.took hv).mono hk⟩

/-- A variable whose bytes are all zero. -/
def Zeroed (m : Memory) (t : Tensor) (span : Span) : Prop :=
  t.isVariable = true → m.piece span.range = List.replicate t.size 0

theorem reserveVariable_runs {s : Site σ π} (hs : s.Sound) (t : Tensor) :
    (reserveVariable t : Pass σ π AllocationError Span).Runs s
      (fun span s' => s.Since s' ∧ VariableSpan (s.stretch s') t span ∧ Zeroed s'.memory t span)
      (fun _ s' => s.Since s') := by
  unfold reserveVariable
  split
  · rename_i hv
    refine (reserve_tail_runs hs _ _).bind fun offset s₁ ⟨h₁, htook, _⟩ => .modify_bind ?_
    have hlen : (List.replicate t.size (0 : UInt8)).length = t.size := List.length_replicate
    have h₂ : s.Since (s₁.mapMemory fun m => m.write offset (List.replicate t.size 0)) :=
      h₁.write_took htook (Nat.le_of_eq hlen)
    refine .of_lift (fun span hspan => ?_) fun _ _ => h₂
    obtain ⟨-, hrange, -⟩ := Span.make_ok hspan
    refine ⟨h₂, ⟨by simp [hv], fun _ => by rw [hrange], fun _ => ?_⟩, fun _ => ?_⟩
    · rw [hrange, Site.stretch_mapMemory]
      exact htook
    · have hfit := Site.stop_le_size_of_took htook hs
      rw [← h₁.size_eq] at hfit
      rw [hrange, Site.memory_mapMemory]
      exact s₁.memory.piece_write_self hlen hfit
  · rename_i hv
    exact .of_pure ⟨.refl hs, ⟨fun _ => rfl, fun h => absurd h hv, fun h => absurd h hv⟩,
      fun h => absurd h hv⟩

/-- What all tensors get when variables are reserved in a stretch: spans in the order of the
tensors, and those of variables apart. -/
structure VariableSpans (k : Stretch) (ts : List Tensor) (spans : List Span) : Prop where
  length_eq : spans.length = ts.length
  each : ∀ p ∈ ts.zip spans, VariableSpan k p.1 p.2
  apart : (ts.zip spans).Pairwise fun p q => p.1.isVariable = true → q.1.isVariable = true →
    p.2.range.Apart q.2.range

theorem VariableSpans.mono {k k' : Stretch} {ts : List Tensor} {spans : List Span}
    (h : VariableSpans k ts spans) (hk : k.Within k') : VariableSpans k' ts spans :=
  ⟨h.length_eq, fun p hp => (h.each p hp).mono hk, h.apart⟩

theorem reserveVariables_runs {s : Site σ π} (hs : s.Sound) (ts : List Tensor) :
    (ts.mapM reserveVariable : Pass σ π AllocationError (List Span)).Runs s
      (fun spans s' => s.Since s' ∧ VariableSpans (s.stretch s') ts spans ∧
        ∀ p ∈ ts.zip spans, Zeroed s'.memory p.1 p.2)
      (fun _ s' => s.Since s') := by
  induction ts generalizing s with
  | nil => exact .of_pure ⟨.refl hs, ⟨rfl, nofun, .nil⟩, nofun⟩
  | cons t rest ih =>
    rw [List.mapM_cons]
    refine (reserveVariable_runs hs t).bind fun span s₁ ⟨h₁, hspan, hzero⟩ => ?_
    refine ((ih h₁.sound).after h₁).bind
      fun spans s₂ ⟨h₂, ⟨hlength, heach, hapart⟩, hzeros⟩ => ?_
    refine .of_pure ⟨h₁.trans h₂, ⟨by simp [hlength], ?_, ?_⟩, ?_⟩
    · intro p hp
      rcases List.mem_cons.mp hp with rfl | hp
      · exact hspan.mono (h₁.stretch_later h₂)
      · exact (heach p hp).mono (h₁.stretch_earlier h₂)
    · refine List.pairwise_cons.mpr ⟨fun q hq hp hv => ?_, hapart⟩
      exact (hspan.took hp).apart ((heach q hq).took hv) (Nat.le_refl _)
    · intro p hp hv
      rcases List.mem_cons.mp hp with rfl | hp
      · rw [(h₂.agreeOn_took (hspan.took hv)).piece_eq, hzero hv]
      · exact hzeros p hp hv

/-! ## Plans as ranges of the arena -/

theorem plan_runs {s : Site σ π} (hs : s.Sound) (strategy : Strategy) (lifetimes : List Lifetime)
    (room : Nat) :
    (plan strategy lifetimes room : Pass σ π AllocationError Plan).Runs s
      (fun p s' => s.Since s' ∧ s'.arena.tail = s.arena.tail ∧
        strategy.place lifetimes arenaAlignment room = .ok p)
      (fun _ s' => s.Since s') := by
  unfold plan
  refine .lift_bind (fun p hp => ?_) fun _ _ => .refl hs
  have hplace : strategy.place lifetimes arenaAlignment room = .ok p := by
    cases hplace : strategy.place lifetimes arenaAlignment room with
    | error e =>
      rw [hplace] at hp
      cases hp
    | ok q =>
      rw [hplace] at hp
      cases hp
      rfl
  split
  · exact .note_bind (.of_pure ⟨(Site.Since.refl hs).note .., rfl, hplace⟩)
  · exact .of_pure ⟨.refl hs, rfl, hplace⟩

/-- The range of a placement in a block that starts at `base`. -/
def placedRange (base : Nat) (p : Placement) : ByteRange :=
  ⟨base + p.offset, p.lifetime.size⟩

/-- A placement whose span could be made keeps the promise of its plan inside the block. -/
theorem placedSpan_ok {base : Nat} {p : Placement} {span : Span}
    (h : placedSpan base p = .ok span) :
    span.range = placedRange base p ∧ p.stop < Word.max := by
  obtain ⟨-, hrange, hle⟩ := Span.make_ok h
  have : Word.max32 < Word.max := by decide
  refine ⟨hrange, ?_⟩
  simp only [Placement.stop]
  omega

theorem placedRange_inside {p : Plan} {lifetimes : List Lifetime} {room base : Nat}
    (hk : p.Kept lifetimes arenaAlignment room) (hbase : arenaAlignment ∣ base) {q : Placement}
    (hq : q ∈ p.placements) (hlt : q.stop < Word.max) :
    arenaAlignment ∣ (placedRange base q).offset ∧ base ≤ (placedRange base q).offset ∧
      (placedRange base q).stop ≤ base + p.peak := by
  refine ⟨Nat.dvd_add hbase (hk.aligned q hq hlt), Nat.le_add_right .., ?_⟩
  have := hk.stop_le q hq hlt
  simp only [Placement.stop] at this
  simp only [placedRange, ByteRange.stop]
  omega

/-- Buffers that are alive together have ranges apart. -/
theorem placedRange_apart {p : Plan} {lifetimes : List Lifetime} {room : Nat} (base : Nat)
    (hk : p.Kept lifetimes arenaAlignment room) {a b : Placement} (ha : a ∈ p.placements)
    (hb : b ∈ p.placements) (hne : a.lifetime.buffer ≠ b.lifetime.buffer)
    (hover : a.lifetime.Overlaps b.lifetime) (halt : a.stop < Word.max) (hblt : b.stop < Word.max) :
    (placedRange base a).Apart (placedRange base b) := by
  have hclash : ¬ a.Clashes b :=
    rel_of_mem_of_pairwise (R := fun a b => a.stop < Word.max → b.stop < Word.max → ¬ a.Clashes b)
      (fun a b h hb ha hc => h ha hb hc.symm) hk.apart ha hb (fun h => hne (by rw [h])) halt hblt
  intro x hx hx'
  simp only [placedRange, ByteRange.Covers, ByteRange.stop] at hx hx'
  apply hclash
  simp only [Placement.Clashes, Placement.stop]
  exact ⟨by omega, by omega, hover, by omega⟩

/-! ## Activations -/

theorem enterSpans_ok {base : Nat} {spans spans' : List Span} {ps : List Placement}
    (distinct : ps.Pairwise fun p q => p.lifetime.buffer ≠ q.lifetime.buffer)
    (h : enterSpans base spans ps = .ok spans') :
    spans'.length = spans.length ∧
      (∀ id, (∀ p ∈ ps, p.lifetime.buffer ≠ .tensor id) → spans'[id]? = spans[id]?) ∧
      ∀ p ∈ ps, ∀ id, p.lifetime.buffer = .tensor id → id < spans.length →
        ∃ span, spans'[id]? = some span ∧ placedSpan base p = .ok span := by
  induction ps generalizing spans with
  | nil =>
    cases h
    exact ⟨rfl, fun _ _ => rfl, nofun⟩
  | cons p rest ih =>
    obtain ⟨hfirst, hrest⟩ := List.pairwise_cons.mp distinct
    unfold enterSpans at h
    split at h
    · -- A scratch block enters nothing.
      rename_i op k hbuffer
      obtain ⟨h₁, h₂, h₃⟩ := ih hrest h
      refine ⟨h₁, fun id hid => h₂ id fun q hq => hid q (List.mem_cons_of_mem _ hq),
        fun q hq id hid hlt => ?_⟩
      rcases List.mem_cons.mp hq with rfl | hq
      · rw [hbuffer] at hid
        cases hid
      · exact h₃ q hq id hid hlt
    · rename_i id hbuffer
      split at h
      · rename_i span hspan
        obtain ⟨h₁, h₂, h₃⟩ := ih hrest h
        rw [List.length_set] at h₁ h₃
        refine ⟨h₁, fun id' hid' => ?_, fun q hq id' hid' hlt => ?_⟩
        · rw [h₂ id' fun q hq => hid' q (List.mem_cons_of_mem _ hq), List.getElem?_set_ne]
          rintro rfl
          exact hid' p List.mem_cons_self hbuffer
        · rcases List.mem_cons.mp hq with rfl | hq
          · -- No later placement is for the same tensor, so its span stays.
            obtain rfl : id = id' := by
              rw [hbuffer] at hid'
              exact BufferId.tensor.inj hid'
            refine ⟨span, ?_, hspan⟩
            rw [h₂ id fun r hr => hbuffer ▸ (hfirst r hr).symm, List.getElem?_set_self hlt]
          · exact h₃ q hq id' hid' hlt
      · cases h

/-- What the activations get in a stretch: the planned ones lie in one block, `home`, which is empty
or was granted there; all other tensors keep their spans. -/
structure ActivationSpans (g : Graph) (k : Stretch) (home : ByteRange)
    (spans spans' : List Span) : Prop where
  length_eq : spans'.length = spans.length
  shared : home = .empty ∨ k.Took home
  placed : ∀ id l, g.Planned id l → ∃ span, spans'[id]? = some span ∧
    span.range.length = l.size ∧ arenaAlignment ∣ span.range.offset ∧
    home.offset ≤ span.range.offset ∧ span.range.stop ≤ home.stop
  other : ∀ id, (∀ l, ¬ g.Planned id l) → spans'[id]? = spans[id]?
  apart : ∀ id id' l l' span span', g.Planned id l → g.Planned id' l' → id ≠ id' → l.Overlaps l' →
    spans'[id]? = some span → spans'[id']? = some span' → span.range.Apart span'.range

theorem ActivationSpans.mono {g : Graph} {k k' : Stretch} {home : ByteRange}
    {spans spans' : List Span} (h : ActivationSpans g k home spans spans') (hk : k.Within k') :
    ActivationSpans g k' home spans spans' :=
  { h with shared := h.shared.imp_right fun ht => ht.mono hk }

/-- The spans of the planned activations are those of their placements in a block that starts at
`base`. -/
def Entered (g : Graph) (p : Plan) (base : Nat) (spans : List Span) : Prop :=
  ∀ id l, g.Planned id l → ∃ q ∈ p.placements, q.lifetime = l ∧ q.stop < Word.max ∧
    ∃ span, spans[id]? = some span ∧ span.range = placedRange base q

theorem enterSpans_of_plan {g : Graph} {p : Plan} {room base : Nat} {spans spans' : List Span}
    (hlength : spans.length = g.tensors.length) (hk : p.Kept g.lifetimes arenaAlignment room)
    (h : enterSpans base spans p.placements = .ok spans') :
    spans'.length = spans.length ∧ (∀ id, (∀ l, ¬ g.Planned id l) → spans'[id]? = spans[id]?) ∧
      Entered g p base spans' := by
  have distinct : p.placements.Pairwise fun p q => p.lifetime.buffer ≠ q.lifetime.buffer := by
    have := g.lifetimes_pairwise
    rw [← hk.lifetimes_eq, List.pairwise_map] at this
    exact this
  obtain ⟨hlen, hother, hentered⟩ := enterSpans_ok distinct h
  refine ⟨hlen, fun id hid => hother id fun q hq hbuffer => ?_, fun id l hl => ?_⟩
  · -- Only planned tensors are placed.
    obtain ⟨id', hl⟩ : ∃ id', g.Planned id' q.lifetime := by
      apply Graph.mem_lifetimes.mp
      rw [← hk.lifetimes_eq]
      exact List.mem_map_of_mem hq
    rw [hl.buffer_eq] at hbuffer
    cases hbuffer
    exact hid _ hl
  · have hmem := Graph.mem_lifetimes.mpr ⟨id, hl⟩
    rw [← hk.lifetimes_eq] at hmem
    obtain ⟨q, hq, rfl⟩ := List.mem_map.mp hmem
    have hlt := hl.lt
    rw [← hlength] at hlt
    obtain ⟨span, hget, hmake⟩ := hentered q hq id hl.buffer_eq hlt
    obtain ⟨hrange, hstop⟩ := placedSpan_ok hmake
    exact ⟨q, hq, rfl, hstop, span, hget, hrange⟩

theorem activationSpans_of_plan {g : Graph} {k : Stretch} {p : Plan} {room base : Nat}
    {spans spans' : List Span} (hlength : spans.length = g.tensors.length)
    (hk : p.Kept g.lifetimes arenaAlignment room)
    (hhome : ByteRange.mk base p.peak = .empty ∨ k.Took ⟨base, p.peak⟩)
    (h : enterSpans base spans p.placements = .ok spans') :
    ActivationSpans g k ⟨base, p.peak⟩ spans spans' := by
  have hbase : arenaAlignment ∣ base := by
    rcases hhome with heq | htook
    · rw [(ByteRange.mk.inj heq).1]
      exact Nat.dvd_zero _
    · exact htook.aligned
  obtain ⟨hlen, hother, hspan⟩ := enterSpans_of_plan hlength hk h
  refine ⟨hlen, hhome, fun id l hl => ?_, hother, ?_⟩
  · obtain ⟨q, hq, rfl, hstop, span, hget, hrange⟩ := hspan id l hl
    obtain ⟨h₁, h₂, h₃⟩ := placedRange_inside hk hbase hq hstop
    rw [← hrange] at h₁ h₂ h₃
    exact ⟨span, hget, by rw [hrange]; rfl, h₁, h₂, h₃⟩
  · intro id id' l l' span span' hl hl' hne hover hget hget'
    obtain ⟨q, hq, rfl, hstop, _, hq', hrange⟩ := hspan id l hl
    obtain ⟨r, hr, rfl, hstop', _, hr', hrange'⟩ := hspan id' l' hl'
    cases hget.symm.trans hq'
    cases hget'.symm.trans hr'
    rw [hrange, hrange']
    refine placedRange_apart base hk hq hr ?_ hover hstop hstop'
    rw [hl.buffer_eq, hl'.buffer_eq]
    exact fun heq => hne (BufferId.tensor.inj heq)

theorem placeActivations_runs {s : Site σ π} (hs : s.Sound) (g : Graph) {strategy : Strategy}
    (hsound : strategy.Sound) {spans : List Span} (hlength : spans.length = g.tensors.length) :
    (placeActivations g strategy spans : Pass σ π AllocationError (List Span)).Runs s
      (fun spans' s' => s.Since s' ∧
        (∃ home, ActivationSpans g (s.stretch s') home spans spans') ∧
        ∃ p room base, strategy.place g.lifetimes arenaAlignment room = .ok p ∧
          Entered g p base spans')
      (fun _ s' => s.Since s') := by
  unfold placeActivations
  refine .get_bind ((plan_runs hs strategy _ _).bind fun p s₁ ⟨h₁, _, hplace⟩ => ?_)
  have hkept := hsound _ _ _ _ hplace
  split
  · refine ((reserve_tail_runs h₁.sound _ _).after h₁).bind
      fun base s₂ ⟨h₂, htook, _⟩ => ?_
    refine .lift_bind (fun spans' hspans => ?_) fun _ _ => h₁.trans h₂
    have hspan := (enterSpans_of_plan hlength hkept hspans).2.2
    have hactivations := activationSpans_of_plan hlength hkept
      (.inr (htook.mono (h₁.stretch_earlier h₂))) hspans
    exact .note_bind (.of_pure
      ⟨(h₁.trans h₂).note .., ⟨_, hactivations⟩, p, _, base, hplace, hspan⟩)
  · rename_i hpeak
    refine .lift_bind (fun spans' hspans => ?_) fun _ _ => h₁
    have hspan := (enterSpans_of_plan hlength hkept hspans).2.2
    refine .note_bind (.of_pure ⟨h₁.note .., ⟨⟨0, p.peak⟩, ?_⟩, p, _, 0, hplace, hspan⟩)
    refine activationSpans_of_plan hlength hkept (.inl ?_) hspans
    rw [Nat.eq_zero_of_not_pos hpeak]
    rfl

/-! ## Tables -/

theorem mapMemory_const (s : Site σ π) (f : Memory → Memory) :
    (s.mapMemory fun _ => f s.memory) = s.mapMemory f := by
  obtain ⟨store, hold, outside, profile, log, granted⟩ := s
  cases store
  · rfl
  · rfl

/-- Writing a table: the table is there afterwards, and no byte outside it changed. -/
theorem commitTable_runs {layout : Layout α} (hl : layout.Lawful) (s : Site σ π) (table : Nat)
    (rows : List α) :
    (commitTable layout table rows : Pass σ π AllocationError Unit).Runs s
      (fun _ s' => s' = (s.mapMemory fun m => m.write table (rows.flatMap layout.encode)) ∧
        s'.memory.HasTable layout table rows)
      (fun _ s' => s' = s) := by
  unfold Runs exec commitTable changeMemory
  simp only [ExceptT.run_mk, StateT.run, Memory.writeTable]
  by_cases hfit : table + (rows.flatMap layout.encode).length ≤ s.store.memory.size
  · have hfit' := hfit
    rw [Layout.length_flatMap_encode hl] at hfit'
    rw [if_pos hfit]
    refine ⟨mapMemory_const s fun m => m.write table (rows.flatMap layout.encode), ?_⟩
    rw [Site.memory_mapMemory]
    exact Memory.hasTable_write hl _ hfit'
  · rw [if_neg hfit]
    rfl

/-! ## Scratch blocks -/

theorem mapM_ok {f : α → Except ε β} {l : List α} {r : List β} (h : l.mapM f = .ok r) :
    r.length = l.length ∧ ∀ p ∈ l.zip r, f p.1 = .ok p.2 := by
  induction l generalizing r with
  | nil =>
    cases h
    exact ⟨rfl, nofun⟩
  | cons a rest ih =>
    rw [List.mapM_cons] at h
    obtain ⟨b, hb, h⟩ := bind_ok h
    obtain ⟨bs, hbs, h⟩ := bind_ok h
    cases h
    obtain ⟨hlen, hall⟩ := ih hbs
    refine ⟨by simp [hlen], fun p hp => ?_⟩
    rcases List.mem_cons.mp hp with rfl | hp
    · exact hb
    · exact hall p hp

/-- What the scratch blocks get in a stretch: their table lies at the tail, and their spans in one
block of the head, `home`. Blocks of one operator are apart. -/
structure ScratchSpans (k : Stretch) (lifetimes : List Lifetime) (table : Nat)
    (home : ByteRange) (spans : List Span) : Prop where
  length_eq : spans.length = lifetimes.length
  took : spans ≠ [] → k.Took (Memory.tableRange Span.layout table spans.length)
  shared : spans ≠ [] → ⟨.head, home, arenaAlignment⟩ ∈ k.blocks ∧ home.stop ≤ k.low
  each : ∀ p ∈ lifetimes.zip spans, p.2.range.length = p.1.size ∧
    arenaAlignment ∣ p.2.range.offset ∧ home.offset ≤ p.2.range.offset ∧
    p.2.range.stop ≤ home.stop
  apart : (lifetimes.zip spans).Pairwise fun p q => p.1.buffer ≠ q.1.buffer → p.1.Overlaps q.1 →
    p.2.range.Apart q.2.range

theorem ScratchSpans.mono {k : Stretch} {blocks : List Block} {lifetimes : List Lifetime}
    {table : Nat} {home : ByteRange} {spans : List Span}
    (h : ScratchSpans k lifetimes table home spans) (hk : k.blocks ⊆ blocks) :
    ScratchSpans ⟨blocks, k.low, k.high⟩ lifetimes table home spans :=
  { h with
    took := fun hne => (h.took hne).mono ⟨hk, Nat.le_refl _, Nat.le_refl _⟩
    shared := fun hne => ⟨hk (h.shared hne).1, (h.shared hne).2⟩ }

theorem scratchSpans_each_apart {lifetimes : List Lifetime} {p : Plan} {room base : Nat}
    {spans : List Span} (hk : p.Kept lifetimes arenaAlignment room) (hbase : arenaAlignment ∣ base)
    (h : p.placements.mapM (placedSpan base) = .ok spans) :
    spans.length = lifetimes.length ∧
      (∀ q ∈ lifetimes.zip spans, q.2.range.length = q.1.size ∧
        arenaAlignment ∣ q.2.range.offset ∧ base ≤ q.2.range.offset ∧
        q.2.range.stop ≤ base + p.peak) ∧
      (lifetimes.zip spans).Pairwise fun q r => q.1.buffer ≠ r.1.buffer → q.1.Overlaps r.1 →
        q.2.range.Apart r.2.range := by
  obtain ⟨hlen, hall⟩ := mapM_ok h
  have hzip : lifetimes.zip spans =
      (p.placements.zip spans).map (Prod.map Placement.lifetime id) := by
    rw [← List.zip_map_left, hk.lifetimes_eq]
  have hfst : (p.placements.zip spans).map Prod.fst = p.placements :=
    List.map_fst_zip (Nat.le_of_eq hlen.symm)
  refine ⟨?_, ?_, ?_⟩
  · rw [hlen, ← hk.lifetimes_eq, List.length_map]
  · rw [hzip]
    intro q hq
    obtain ⟨⟨a, span⟩, hmem, rfl⟩ := List.mem_map.mp hq
    obtain ⟨hrange, hstop⟩ := placedSpan_ok (hall _ hmem)
    obtain ⟨h₁, h₂, h₃⟩ := placedRange_inside hk hbase (List.of_mem_zip hmem).1 hstop
    simp only [Prod.map_apply, id_eq]
    rw [hrange]
    exact ⟨rfl, h₁, h₂, h₃⟩
  · -- The plan keeps placements apart, and spans are placements moved by the base.
    rw [hzip, List.pairwise_map]
    have hpairs := hk.apart
    rw [← hfst, List.pairwise_map] at hpairs
    refine hpairs.imp_of_mem ?_
    rintro ⟨a, span⟩ ⟨b, span'⟩ ha hb - hne hover
    obtain ⟨hrange, hstop⟩ := placedSpan_ok (hall _ ha)
    obtain ⟨hrange', hstop'⟩ := placedSpan_ok (hall _ hb)
    simp only [Prod.map_apply, id_eq]
    rw [hrange, hrange']
    exact placedRange_apart base hk (List.of_mem_zip ha).1 (List.of_mem_zip hb).1 hne hover hstop
      hstop'

theorem placeScratch_runs {s : Site σ π} (hs : s.Sound) (g : Graph) {strategy : Strategy}
    (hsound : strategy.Sound) (lifetimes : List Lifetime) :
    (placeScratch g strategy lifetimes : Pass σ π AllocationError Nat).Runs s
      (fun table s' => s.Since s' ∧ ∃ home spans,
        ScratchSpans (s.stretch s') lifetimes table home spans ∧
        (spans ≠ [] → s'.memory.HasTable Span.layout table spans))
      (fun _ s' => s.Since s') := by
  unfold placeScratch
  split
  · rename_i hempty
    obtain rfl : lifetimes = [] := List.isEmpty_iff.mp hempty
    exact .of_pure ⟨.refl hs, .empty, [], ⟨rfl, nofun, nofun, nofun, .nil⟩, nofun⟩
  · refine (reserve_tail_runs hs _ _).bind fun table s₁ ⟨h₁, htable, _⟩ => .get_bind ?_
    refine ((plan_runs h₁.sound strategy _ _).after h₁).bind
      fun p s₂ ⟨h₂, _, hplace⟩ => ?_
    have hkept := hsound _ _ _ _ hplace
    have h₁₂ := h₁.trans h₂
    refine ((reserve_head_runs h₂.sound _ _).after h₁₂).bind
      fun base s₃ ⟨h₃, hhome, hfit, hbase, _⟩ => ?_
    have h₁₃ := h₁₂.trans h₃
    refine .lift_bind (fun spans hspans => ?_) fun _ _ => h₁₃
    obtain ⟨hlen, heach, hapart⟩ := scratchSpans_each_apart hkept hbase hspans
    have htook : s.Took s₃ (Memory.tableRange Span.layout table spans.length) := by
      rw [hlen]
      exact htable.mono (h₁.stretch_later (h₂.trans h₃))
    refine ((commitTable_runs Span.layout_lawful s₃ table spans).mono (fun _ _ h => h) ?_).bind ?_
    · rintro _ _ rfl
      exact h₁₃
    · rintro _ _ ⟨rfl, hheld⟩
      have h₄ : s.Since (s₃.mapMemory fun m => m.write table (spans.flatMap Span.layout.encode)) :=
        h₁₃.write_took htook (Nat.le_of_eq (Layout.length_flatMap_encode Span.layout_lawful _))
      have hstretch := s.stretch_mapMemory s₃ fun m => m.write table (spans.flatMap Span.layout.encode)
      refine .note_bind (.of_pure ⟨h₄.note .., ⟨base, p.peak⟩, spans, ?_, fun _ => hheld⟩)
      show ScratchSpans (s.stretch (s₃.mapMemory _)) _ _ _ _
      rw [hstretch]
      exact ⟨hlen, fun _ => htook, fun _ => ⟨h₁₂.fresh_earlier h₃ hhome, hfit⟩, heach, hapart⟩

end Pass

end TensorArena
