import TensorArena.Proofs.Arena.Positions
import TensorArena.Proofs.Interpreter.Runs
import TensorArena.Proofs.Memory.Frame

/-!
# Sites over time

`Site.Sound` is what every site keeps: the positions of its arena stand in order, every granted block
lies on its side of them, and a block of the tail shares no byte with any other block.

`s.Since s'` says that a pass may lead from `s` to `s'`: more blocks are granted, and no byte
changes but those between the new tail and the old one, which belonged to nobody before. The relation
is transitive, so it holds over a whole pass when it holds over each step. `s.Took s' r` says that
`r` is a block of the tail granted on the way.
-/

namespace TensorArena

/-! ## Stores -/

namespace Store

/-- A store answers as its arena does, and keeps the arena if that refuses. -/
theorem allocate_answer {s s' : Store} {region : Region} {size align : Nat} {category : Category}
    {answer : Except MemoryError Nat} (h : s.allocate region size align category = (answer, s')) :
    match answer with
    | .ok offset => s.arena.allocate region size align = .ok (offset, s'.arena)
    | .error e => s.arena.allocate region size align = .error e ∧ s'.arena = s.arena := by
  cases s with
  | plain a =>
    simp only [allocate] at h
    split at h
    · rename_i ha
      cases h
      exact ha
    · rename_i ha
      cases h
      exact ⟨ha, rfl⟩
  | recorded r =>
    simp only [allocate, Recorder.allocate] at h
    split at h
    · rename_i ha
      cases h
      exact ⟨ha, rfl⟩
    · rename_i ha
      cases h
      exact ha

theorem allocate_ok {s s' : Store} {region : Region} {size align : Nat} {category : Category}
    {offset : Nat} (h : s.allocate region size align category = (.ok offset, s')) :
    s.arena.allocate region size align = .ok (offset, s'.arena) :=
  allocate_answer h

theorem allocate_error {s s' : Store} {region : Region} {size align : Nat} {category : Category}
    {e : MemoryError} (h : s.allocate region size align category = (.error e, s')) :
    s.arena.allocate region size align = .error e ∧ s'.arena = s.arena :=
  allocate_answer h

@[simp]
theorem arena_resetHead (s : Store) : s.resetHead.arena = s.arena.resetHead := by
  cases s
  · rfl
  · rfl

@[simp]
theorem arena_mapMemory (s : Store) (f : Memory → Memory) :
    (s.mapMemory f).arena = { s.arena with memory := f s.arena.memory } := by
  cases s
  · rfl
  · rfl

end Store

/-- Of two blocks that are not both of the head, no byte lies in both. -/
def Block.Clear (b c : Block) : Prop :=
  b.region = .tail ∨ c.region = .tail → b.range.Apart c.range

theorem Block.Clear.symm {b c : Block} (h : b.Clear c) : c.Clear b :=
  fun hr => (h hr.symm).symm

/-! ## Stretches of the tail -/

/-- Blocks, and two positions that the tail fell between while some of them were granted. -/
structure Stretch where
  blocks : List Block
  low : Nat
  high : Nat

/-- A stretch that is part of another one. -/
structure Stretch.Within (k k' : Stretch) : Prop where
  blocks : k.blocks ⊆ k'.blocks
  low : k'.low ≤ k.low
  high : k.high ≤ k'.high

/-- The range is a block of the tail that was granted in the stretch. -/
structure Stretch.Took (k : Stretch) (r : ByteRange) : Prop where
  mem : ⟨.tail, r, arenaAlignment⟩ ∈ k.blocks
  low_le : k.low ≤ r.offset
  stop_le : r.stop ≤ k.high
  aligned : arenaAlignment ∣ r.offset

theorem Stretch.Took.mono {k k' : Stretch} {r : ByteRange} (h : k.Took r) (hk : k.Within k') :
    k'.Took r where
  mem := hk.blocks h.mem
  low_le := Nat.le_trans hk.low h.low_le
  stop_le := Nat.le_trans h.stop_le hk.high
  aligned := h.aligned

/-- Blocks of different stretches are apart. -/
theorem Stretch.Took.apart {k k' : Stretch} {r r' : ByteRange} (h : k.Took r) (h' : k'.Took r')
    (hle : k'.high ≤ k.low) : r.Apart r' :=
  (ByteRange.apart_of_stop_le (Nat.le_trans h'.stop_le (Nat.le_trans hle h.low_le))).symm

namespace Site

variable {σ π : Type} {s s' s'' : Site σ π}

/-- The arena of the site. -/
abbrev arena (s : Site σ π) : Arena :=
  s.store.arena

/-- The bytes of the site. -/
abbrev memory (s : Site σ π) : Memory :=
  s.store.arena.memory

/-- What every site keeps. -/
structure Sound (s : Site σ π) : Prop where
  kept : s.arena.WellKept
  holds : ∀ b ∈ s.granted, s.arena.Holds b
  clear : s.granted.Pairwise Block.Clear

/-- A site over a fresh arena. -/
def ofBuffer (address : Nat) (buffer : Memory) (outside : σ) (profile : π) : Site σ π where
  store := .plain (.ofBuffer address buffer)
  outside := outside
  profile := profile

theorem ofBuffer_sound (address : Nat) (buffer : Memory) (outside : σ) (profile : π) :
    (ofBuffer address buffer outside profile).Sound where
  kept := Arena.ofBuffer_wellKept address buffer
  holds := nofun
  clear := .nil

@[simp]
theorem arena_mapMemory (s : Site σ π) (f : Memory → Memory) :
    (s.mapMemory f).arena = { s.arena with memory := f s.memory } :=
  s.store.arena_mapMemory f

@[simp]
theorem memory_mapMemory (s : Site σ π) (f : Memory → Memory) :
    (s.mapMemory f).memory = f s.memory :=
  congrArg Arena.memory (s.store.arena_mapMemory f)

/-! ## Requests -/

theorem request_ok {region : Region} {size align offset : Nat} {category : Category}
    (h : s.request region size align category = (.ok offset, s')) (hs : s.Sound) :
    s.arena.Grants ⟨region, ⟨offset, size⟩, align⟩ s'.arena ∧
      s'.granted = ⟨region, ⟨offset, size⟩, align⟩ :: s.granted ∧ s'.hold = s.hold := by
  unfold request at h
  split at h
  · rename_i offset' store ha
    cases h
    exact ⟨Arena.allocate_ok (Store.allocate_ok ha) hs.kept, rfl, rfl⟩
  · cases h

theorem request_error {region : Region} {size align : Nat} {category : Category} {e : MemoryError}
    (h : s.request region size align category = (.error e, s')) :
    s'.arena = s.arena ∧ s'.granted = s.granted ∧ s'.hold = s.hold := by
  unfold request at h
  split at h
  · cases h
  · rename_i ha
    cases h
    exact ⟨(Store.allocate_error ha).2, rfl, rfl⟩

/-- A site stays sound when one more block is granted. -/
theorem Sound.grant (hs : s.Sound) {b : Block} (hg : s.arena.Grants b s'.arena)
    (hgranted : s'.granted = b :: s.granted) : s'.Sound := by
  refine ⟨hg.kept, ?_, ?_⟩
  · rw [hgranted]
    intro c hc
    rcases List.mem_cons.mp hc with rfl | hc
    · exact hg.holds
    · exact (hs.holds c hc).later hg.later
  · rw [hgranted]
    refine List.pairwise_cons.mpr ⟨fun c hc hr => ?_, hs.clear⟩
    rcases hr with hb | hc'
    · exact hg.tail_apart (hs.holds c hc) hb
    · exact hg.apart_tail (hs.holds c hc) hc'

/-! ## Passes over time -/

/-- What a pass may do to a site. -/
structure Since (s s' : Site σ π) : Prop where
  sound : s'.Sound
  later : s.arena.Later s'.arena
  grown : s.granted <:+ s'.granted
  agree : ∀ x, s.arena.tail ≤ x ∨ x < s'.arena.tail → s'.memory.get x = s.memory.get x
  hold_eq : s'.hold = s.hold

theorem Since.trans (h : s.Since s') (h' : s'.Since s'') : s.Since s'' where
  sound := h'.sound
  later := h.later.trans h'.later
  grown := h.grown.trans h'.grown
  agree x hx := by
    have h₁ := h.later.tail_le
    have h₂ := h'.later.tail_le
    rw [h'.agree x (by omega), h.agree x (by omega)]
  hold_eq := h'.hold_eq.trans h.hold_eq

/-- What does not touch the arena, the blocks and the hold is allowed at any time. -/
theorem Since.of_eq (hs : s.Sound) (harena : s'.arena = s.arena) (hgranted : s'.granted = s.granted)
    (hhold : s'.hold = s.hold) : s.Since s' where
  sound := ⟨by rw [harena]; exact hs.kept, by rw [harena, hgranted]; exact hs.holds,
    by rw [hgranted]; exact hs.clear⟩
  later := harena ▸ .refl _
  grown := hgranted ▸ List.suffix_refl _
  agree x _ := congrArg (fun a : Arena => a.memory.get x) harena
  hold_eq := hhold

theorem Since.refl (hs : s.Sound) : s.Since s :=
  .of_eq hs rfl rfl rfl

theorem Since.note (h : s.Since s') (level : Level) (text : String) :
    s.Since (s'.note level text) :=
  h.trans (.of_eq h.sound rfl rfl rfl)

theorem Since.rewind (hs : s.Sound) : s.Since s.rewind := by
  have harena : s.rewind.arena = s.arena.resetHead := s.store.arena_resetHead
  have hmemory : s.rewind.memory = s.memory := (congrArg Arena.memory harena).trans rfl
  refine ⟨⟨?_, ?_, hs.clear⟩, ?_, List.suffix_refl _, ?_, rfl⟩
  · rw [harena]
    exact hs.kept.resetHead
  · intro b hb
    rw [harena]
    exact (hs.holds b hb).later (.resetHead _)
  · rw [harena]
    exact .resetHead _
  · intro x _
    rw [hmemory]

/-- Bytes granted on the way may be written. -/
theorem Since.write (h : s.Since s') {offset : Nat} {bytes : Bytes}
    (hlow : s'.arena.tail ≤ offset) (hhigh : offset + bytes.length ≤ s.arena.tail) :
    s.Since (s'.mapMemory fun m => m.write offset bytes) where
  sound := by
    obtain ⟨⟨h₁, h₂, h₃⟩, holds, clear⟩ := h.sound
    refine ⟨⟨?_, ?_, ?_⟩, fun b hb => ?_, clear⟩
    · rw [arena_mapMemory]
      exact h₁
    · rw [arena_mapMemory]
      exact h₂
    · rw [arena_mapMemory]
      simpa only [Arena.capacity, Memory.size_write] using h₃
    · have := holds b hb
      rw [arena_mapMemory]
      simpa only [Arena.Holds, Arena.capacity, Memory.size_write] using this
  later := by
    obtain ⟨h₁, h₂, h₃⟩ := h.later
    rw [arena_mapMemory]
    exact ⟨by simpa only [Arena.capacity, Memory.size_write] using h₁, h₂, h₃⟩
  grown := h.grown
  agree x hx := by
    simp only [arena_mapMemory] at hx
    rw [memory_mapMemory, Memory.get_write_of_not_covers, h.agree x hx]
    simp only [ByteRange.Covers, ByteRange.stop]
    omega
  hold_eq := h.hold_eq

theorem Since.size_eq (h : s.Since s') : s'.memory.size = s.memory.size :=
  h.later.capacity_eq

/-- Ranges at the old tail or above, and ranges below the new tail, keep their bytes. -/
theorem Since.agreeOn (h : s.Since s') {r : ByteRange}
    (hr : s.arena.tail ≤ r.offset ∨ r.stop ≤ s'.arena.tail) : s.memory.AgreeOn s'.memory r := by
  refine ⟨h.size_eq, fun x hx => h.agree x ?_⟩
  obtain ⟨h₁, h₂⟩ := hx
  omega

/-! ## Blocks taken on the way -/

/-- The blocks granted between two sites, the newest one first. -/
def fresh (s s' : Site σ π) : List Block :=
  s'.granted.take (s'.granted.length - s.granted.length)

theorem fresh_of_eq {blocks : List Block} (h : s'.granted = blocks ++ s.granted) :
    s.fresh s' = blocks := by
  rw [fresh, h, List.length_append, Nat.add_sub_cancel, List.take_left]

theorem fresh_of_cons {b : Block} (h : s'.granted = b :: s.granted) : s.fresh s' = [b] :=
  fresh_of_eq h

theorem Since.granted_eq (h : s.Since s') : s'.granted = s.fresh s' ++ s.granted := by
  obtain ⟨blocks, hblocks⟩ := h.grown
  rw [fresh_of_eq hblocks.symm, hblocks]

theorem Since.fresh_trans (h : s.Since s') (h' : s'.Since s'') :
    s.fresh s'' = s'.fresh s'' ++ s.fresh s' := by
  refine fresh_of_eq ?_
  rw [List.append_assoc, ← h.granted_eq, ← h'.granted_eq]

theorem Since.fresh_later (h : s.Since s') (h' : s'.Since s'') : s.fresh s' ⊆ s.fresh s'' := by
  rw [h.fresh_trans h']
  exact List.subset_append_right ..

theorem Since.fresh_earlier (h : s.Since s') (h' : s'.Since s'') : s'.fresh s'' ⊆ s.fresh s'' := by
  rw [h.fresh_trans h']
  exact List.subset_append_left ..

theorem Since.fresh_between {s₃ : Site σ π} (h : s.Since s') (h' : s'.Since s'')
    (h'' : s''.Since s₃) : s'.fresh s'' ⊆ s.fresh s₃ :=
  List.Subset.trans (h.fresh_earlier h') ((h.trans h').fresh_later h'')

theorem fresh_congr (h : s'.granted = s''.granted) : s.fresh s' = s.fresh s'' := by
  rw [fresh, fresh, h]

/-- The stretch of the tail between two sites. -/
def stretch (s s' : Site σ π) : Stretch :=
  ⟨s.fresh s', s'.arena.tail, s.arena.tail⟩

/-- The range is a block of the tail that was granted between the two sites. -/
abbrev Took (s s' : Site σ π) (r : ByteRange) : Prop :=
  (s.stretch s').Took r

theorem Since.stretch_later (h : s.Since s') (h' : s'.Since s'') :
    (s.stretch s').Within (s.stretch s'') where
  blocks := h.fresh_later h'
  low := h'.later.tail_le
  high := Nat.le_refl _

theorem Since.stretch_earlier (h : s.Since s') (h' : s'.Since s'') :
    (s'.stretch s'').Within (s.stretch s'') where
  blocks := h.fresh_earlier h'
  low := Nat.le_refl _
  high := h.later.tail_le

theorem stretch_mapMemory (s s' : Site σ π) (f : Memory → Memory) :
    s.stretch (s'.mapMemory f) = s.stretch s' := by
  rw [stretch, arena_mapMemory]
  rfl

theorem stop_le_size_of_took {r : ByteRange} (h : s.Took s' r) (hs : s.Sound) :
    r.stop ≤ s.memory.size :=
  Nat.le_trans h.stop_le hs.kept.tail_le

/-- A block that was taken keeps its bytes from then on. -/
theorem Since.agreeOn_took {r : ByteRange} (h' : s'.Since s'') (h : s.Took s' r) :
    s'.memory.AgreeOn s''.memory r :=
  h'.agreeOn (.inl h.low_le)

/-- Writing into a block that was taken. -/
theorem Since.write_took {r : ByteRange} (hs : s.Since s') (h : s.Took s' r) {bytes : Bytes}
    (hlen : bytes.length ≤ r.length) : s.Since (s'.mapMemory fun m => m.write r.offset bytes) := by
  refine hs.write h.low_le ?_
  have := h.stop_le
  simp only [ByteRange.stop, stretch] at this
  omega

/-! ## Blocks granted -/

theorem request_ok_since {region : Region} {size align offset : Nat} {category : Category}
    (h : s.request region size align category = (.ok offset, s')) (hs : s.Sound) :
    s.Since s' ∧ s'.memory = s.memory := by
  obtain ⟨hg, hgranted, hhold⟩ := request_ok h hs
  refine ⟨⟨hs.grant hg hgranted, hg.later, ?_, fun x _ => ?_, hhold⟩, hg.memory_eq⟩
  · rw [hgranted]
    exact List.suffix_cons ..
  · rw [memory, hg.memory_eq]

theorem request_error_since {region : Region} {size align : Nat} {category : Category}
    {e : MemoryError} (h : s.request region size align category = (.error e, s')) (hs : s.Sound) :
    s.Since s' := by
  obtain ⟨h₁, h₂, h₃⟩ := request_error h
  exact .of_eq hs h₁ h₂ h₃

theorem request_since (hs : s.Sound) (region : Region) (size align : Nat) (category : Category) :
    s.Since (s.request region size align category).2 := by
  cases hrequest : s.request region size align category with
  | mk answer s' =>
    cases answer with
    | ok offset => exact (request_ok_since hrequest hs).1
    | error e => exact request_error_since hrequest hs

theorem allocate_tail_ok {size offset : Nat} {category : Category}
    (h : s.allocate .tail size category = (.ok offset, s')) (hs : s.Sound) :
    s.Since s' ∧ s.Took s' ⟨offset, size⟩ ∧ s'.memory = s.memory := by
  obtain ⟨hsince, hmemory⟩ := request_ok_since h hs
  obtain ⟨hg, hgranted, -⟩ := request_ok h hs
  refine ⟨hsince, ⟨?_, Nat.le_of_eq (hg.tail_eq rfl).1, hg.stop_le_tail, hg.aligned⟩, hmemory⟩
  rw [stretch, fresh_of_cons hgranted]
  exact List.mem_singleton_self _

end Site

/-! ## Reserving -/

namespace Pass

variable {σ π ε α : Type} {s : Site σ π}

/-- A run that is part of a longer one fails on a site that the longer one may lead to. -/
theorem Runs.after {p : Pass σ π ε α} {s₀ : Site σ π} {ok : α → Site σ π → Prop}
    (h : s₀.Since s) (hp : p.Runs s ok fun _ s' => s.Since s') :
    p.Runs s ok fun _ s' => s₀.Since s' :=
  hp.mono (fun _ _ hok => hok) fun _ _ hs => h.trans hs

theorem reserve_tail_runs (hs : s.Sound) (size : Nat) (category : Category) :
    (reserve .tail size category).Runs s
      (fun offset s' => s.Since s' ∧ s.Took s' ⟨offset, size⟩ ∧
        (s.allocate .tail size category).2 = s')
      (fun _ s' => s.Since s') := by
  unfold Runs exec reserve
  simp only [ExceptT.run_mk, StateT.run]
  cases h : s.allocate .tail size category with
  | mk answer s' =>
    cases answer with
    | error e => exact Site.request_error_since h hs
    | ok offset =>
      obtain ⟨hsince, htook, -⟩ := Site.allocate_tail_ok h hs
      exact ⟨hsince, htook, rfl⟩

theorem reserve_head_runs (hs : s.Sound) (size : Nat) (category : Category) :
    (reserve .head size category).Runs s
      (fun offset s' => s.Since s' ∧ ⟨.head, ⟨offset, size⟩, arenaAlignment⟩ ∈ s.fresh s' ∧
        offset + size ≤ s'.arena.tail ∧ arenaAlignment ∣ offset ∧ s'.memory = s.memory)
      (fun _ s' => s.Since s') := by
  unfold Runs exec reserve
  simp only [ExceptT.run_mk, StateT.run]
  cases h : s.allocate .head size category with
  | mk answer s' =>
    cases answer with
    | error e => exact Site.request_error_since h hs
    | ok offset =>
      obtain ⟨hsince, hmemory⟩ := Site.request_ok_since h hs
      obtain ⟨hg, hgranted, -⟩ := Site.request_ok h hs
      refine ⟨hsince, ?_, ?_, hg.aligned, hmemory⟩
      · rw [Site.fresh_of_cons hgranted]
        exact List.mem_singleton_self _
      · rw [(hg.head_eq rfl).2.2]
        exact hg.stop_le_tail

end Pass

end TensorArena
