import TensorArena.Proofs.Interpreter.Since

/-!
# What a pass takes from an arena

A pass moves the tail of the arena down and, where it places scratch blocks, the head up from the
start. How far it moves them does not depend on where the arena's positions stand: a `Demand` says it
in bytes. `p.Takes capacity d` says that `d` is exact for the pass `p`: on an arena with its head
rewound the pass succeeds when the demand is met there, and only then, and it moves the positions by
the demand. Demands of passes that run one after the other are composed with `Demand.andThen`.

Offsets are entered in tables of 32-bit words, so whether a pass succeeds depends on the tail that it
starts from in one more way: `Demand.fits` names the tails that it accepts.
-/

namespace TensorArena

namespace Arena

/-- The positions stand in order, the tail at a multiple of the alignment. -/
structure Steady (a : Arena) : Prop where
  kept : a.WellKept
  aligned : arenaAlignment ∣ a.tail

theorem ofBuffer_steady (address : Nat) (buffer : Memory) : (ofBuffer address buffer).Steady :=
  ⟨ofBuffer_wellKept address buffer, dvd_alignDown (by decide) _⟩

theorem Steady.resetHead {a : Arena} (h : a.Steady) : a.resetHead.Steady :=
  ⟨h.kept.resetHead, h.aligned⟩

/-- A request at an aligned tail, in full: it is granted when the rounded block stays above the
watermark, and it takes the rounded block. -/
theorem Steady.allocate_tail {a : Arena} (h : a.Steady) (size : Nat) :
    (a.watermark + alignUp size arenaAlignment ≤ a.tail ∧
      a.allocate .tail size arenaAlignment = .ok (a.tail - alignUp size arenaAlignment,
        { a with tail := a.tail - alignUp size arenaAlignment })) ∨
    (¬ a.watermark + alignUp size arenaAlignment ≤ a.tail ∧
      ∃ e, a.allocate .tail size arenaAlignment = .error e) := by
  have hround : alignUp size arenaAlignment ≤ a.tail ↔ size ≤ a.tail :=
    alignUp_le_iff (by decide) h.aligned
  have hmark := h.kept.watermark_le
  simp only [allocate, allocateTail, alignDown_sub_eq (show IsPowerOfTwo arenaAlignment by decide) h.aligned]
  rw [if_neg (not_not_intro (by decide))]
  split
  · rename_i hfit
    exact .inl ⟨by omega, rfl⟩
  · rename_i hfit
    exact .inr ⟨by omega, _, rfl⟩

theorem allocate_head_of_rewound {a : Arena} (h : a.head = 0) (size : Nat) :
    (size ≤ a.tail ∧ a.allocate .head size arenaAlignment = .ok (0,
      { a with head := size, watermark := max a.watermark size })) ∨
    (¬ size ≤ a.tail ∧ ∃ e, a.allocate .head size arenaAlignment = .error e) := by
  have hzero : alignUp 0 arenaAlignment = 0 := by decide
  simp only [allocate, allocateHead, h, hzero, Nat.zero_add]
  rw [if_neg (not_not_intro (by decide))]
  split
  · rename_i hfit
    exact .inl ⟨hfit, rfl⟩
  · rename_i hfit
    exact .inr ⟨hfit, _, rfl⟩

end Arena

/-! ## Demands -/

/-- The bytes that a pass takes at either end, and the tails from which it can number them. -/
structure Demand where
  /-- How far the pass moves a rewound head. -/
  head : Nat
  /-- How far it moves the tail. -/
  tail : Nat
  /-- The tails from which it succeeds as far as numbers go. -/
  fits : Nat → Prop
  aligned : arenaAlignment ∣ tail

namespace Demand

/-- The arena has room for the demand, above everything that the head ever held. -/
def Met (d : Demand) (a : Arena) : Prop :=
  d.fits a.tail ∧ a.watermark + d.tail ≤ a.tail ∧ d.head + d.tail ≤ a.tail

/-- The positions of an arena after the demand was taken. -/
structure Moved (d : Demand) (a a' : Arena) : Prop where
  capacity_eq : a'.capacity = a.capacity
  head_eq : a'.head = d.head
  watermark_eq : a'.watermark = max a.watermark d.head
  tail_eq : a'.tail = a.tail - d.tail

theorem Moved.steady {d : Demand} {a a' : Arena} (h : d.Moved a a') (hmet : d.Met a)
    (ha : a.Steady) : a'.Steady := by
  obtain ⟨-, hmark, hhead⟩ := hmet
  have hcapacity := ha.kept.tail_le
  refine ⟨⟨?_, ?_, ?_⟩, ?_⟩
  · rw [h.head_eq, h.watermark_eq]
    exact Nat.le_max_right ..
  · rw [h.watermark_eq, h.tail_eq]
    omega
  · rw [h.tail_eq, h.capacity_eq]
    omega
  · rw [h.tail_eq]
    exact Nat.dvd_sub ha.aligned d.aligned

/-- Writing bytes moves nothing. -/
theorem Moved.withMemory {d : Demand} {a a' : Arena} (h : d.Moved a a') {m : Memory}
    (hsize : m.size = a'.capacity) : d.Moved a { a' with memory := m } :=
  ⟨hsize.trans h.capacity_eq, h.head_eq, h.watermark_eq, h.tail_eq⟩

/-- The demand of a pass that takes nothing. -/
def none : Demand :=
  ⟨0, 0, fun _ => True, Nat.dvd_zero _⟩

/-- The demand of a pass that always fails. -/
def never : Demand :=
  ⟨0, 0, fun _ => False, Nat.dvd_zero _⟩

/-- A block of the tail. -/
def block (size : Nat) : Demand :=
  ⟨0, alignUp size arenaAlignment, fun _ => True, dvd_alignUp (by decide) _⟩

/-- A block of the tail whose range is entered in a table. -/
def spanned (size : Nat) : Demand :=
  { block size with fits := fun tail => tail - alignUp size arenaAlignment + size ≤ Word.max32 }

/-- One demand after the other. -/
def andThen (d d' : Demand) : Demand :=
  ⟨max d.head d'.head, d.tail + d'.tail, fun tail => d.fits tail ∧ d'.fits (tail - d.tail),
    Nat.dvd_add d.aligned d'.aligned⟩

/-- All demands of a list, one after the other. -/
def all (ds : List Demand) : Demand :=
  ds.foldr andThen none

theorem met_none {a : Arena} (ha : a.Steady) : none.Met a :=
  ⟨trivial, ha.kept.watermark_le, Nat.zero_le _⟩

theorem met_block_iff {size : Nat} {a : Arena} : (block size).Met a ↔
    a.watermark + alignUp size arenaAlignment ≤ a.tail := by
  simp only [Met, block, true_and]
  omega

/-- A block can be entered in a table when it ends within the reach of 32-bit words. -/
theorem met_spanned_iff {size : Nat} {a a' : Arena} (h : (block size).Moved a a') :
    (spanned size).Met a ↔ (block size).Met a ∧ a'.tail + size ≤ Word.max32 := by
  rw [h.tail_eq]
  simp only [Met, spanned, block, true_and]
  exact and_comm

theorem Moved.spanned {size : Nat} {a a' : Arena} (h : (block size).Moved a a') :
    (Demand.spanned size).Moved a a' :=
  ⟨h.capacity_eq, h.head_eq, h.watermark_eq, h.tail_eq⟩

theorem moved_none {a a' : Arena} (hhead : a.head = 0) (h : a' = { a with memory := a'.memory })
    (hsize : a'.memory.size = a.memory.size) : none.Moved a a' := by
  refine ⟨hsize, ?_, ?_, ?_⟩
  · rw [h]
    exact hhead
  · rw [h]
    exact (Nat.max_eq_left (Nat.zero_le _)).symm
  · rw [h]
    rfl

/-- Two demands are met together when the second one is met where the first one leaves the arena. -/
theorem met_andThen_iff {d d' : Demand} {a a' : Arena} (h : d.Moved a a') (hmet : d.Met a) :
    (d.andThen d').Met a ↔ d'.Met a' := by
  obtain ⟨hfits, hmark, hhead⟩ := hmet
  simp only [Met, andThen, h.watermark_eq, h.tail_eq]
  refine ⟨fun ⟨⟨_, hfits'⟩, h₁, h₂⟩ => ⟨hfits', by omega, by omega⟩,
    fun ⟨hfits', h₁, h₂⟩ => ⟨⟨hfits, hfits'⟩, by omega, by omega⟩⟩

theorem Met.of_andThen {d d' : Demand} {a : Arena} (h : (d.andThen d').Met a) : d.Met a := by
  obtain ⟨⟨hfits, -⟩, hmark, hhead⟩ := h
  simp only [andThen] at hmark hhead
  exact ⟨hfits, by omega, by omega⟩

theorem Moved.andThen {d d' : Demand} {a a' a'' : Arena} (h : d.Moved a a') (h' : d'.Moved a' a'')
    (hhead : d.head = 0) : (d.andThen d').Moved a a'' where
  capacity_eq := h'.capacity_eq.trans h.capacity_eq
  head_eq := by
    rw [h'.head_eq, Demand.andThen, hhead]
    exact (Nat.max_eq_right (Nat.zero_le _)).symm
  watermark_eq := by
    rw [h'.watermark_eq, h.watermark_eq]
    exact Nat.max_assoc ..
  tail_eq := by
    rw [h'.tail_eq, h.tail_eq]
    exact (Nat.sub_add_eq ..).symm

/-- The demand fits any other tail that it moves down to no less than zero and that 32-bit words
reach. -/
def Moves (d : Demand) : Prop :=
  ∀ tail tail', d.fits tail → d.tail ≤ tail' → tail' ≤ Word.max32 → d.fits tail'

theorem none_moves : none.Moves :=
  fun _ _ _ _ _ => trivial

theorem never_moves : never.Moves :=
  fun _ _ h _ _ => h

theorem block_moves (size : Nat) : (block size).Moves :=
  fun _ _ _ _ _ => trivial

theorem spanned_moves (size : Nat) : (spanned size).Moves := by
  intro _ tail' _ hle hreach
  have : size ≤ alignUp size arenaAlignment := le_alignUp (by decide) _
  simp only [spanned, block] at hle ⊢
  omega

theorem Moves.andThen {d d' : Demand} (h : d.Moves) (h' : d'.Moves) : (d.andThen d').Moves := by
  intro tail tail' ⟨hfits, hfits'⟩ hle hreach
  simp only [Demand.andThen] at hle
  exact ⟨h tail tail' hfits (by omega) hreach, h' _ _ hfits' (by omega) (by omega)⟩

theorem all_moves {ds : List Demand} (h : ∀ d ∈ ds, d.Moves) : (all ds).Moves := by
  induction ds with
  | nil => exact none_moves
  | cons d rest ih =>
    obtain ⟨hd, hrest⟩ := List.forall_mem_cons.mp h
    exact hd.andThen (ih hrest)

theorem head_all {ds : List Demand} (h : ∀ d ∈ ds, d.head = 0) : (all ds).head = 0 := by
  induction ds with
  | nil => rfl
  | cons d rest ih =>
    obtain ⟨hd, hrest⟩ := List.forall_mem_cons.mp h
    rw [all, List.foldr_cons, andThen, hd]
    exact (Nat.zero_max _).trans (ih hrest)

end Demand

/-! ## Passes with exact demands -/

namespace Site

variable {σ π : Type} {s s' : Site σ π} {size : Nat} {category : Category}

theorem allocate_granted {region : Region} {offset : Nat}
    (h : s.allocate region size category = (.ok offset, s')) :
    s.arena.allocate region size arenaAlignment = .ok (offset, s'.arena) := by
  unfold allocate request at h
  split at h
  · rename_i ha
    cases h
    exact Store.allocate_ok ha
  · cases h

theorem allocate_refused {region : Region} {e : MemoryError}
    (h : s.allocate region size category = (.error e, s')) :
    s.arena.allocate region size arenaAlignment = .error e := by
  unfold allocate request at h
  split at h
  · cases h
  · rename_i ha
    cases h
    exact (Store.allocate_error ha).1

/-- A block granted at the tail takes its demand and starts at the new tail. -/
theorem allocate_tail_exact {offset : Nat} (hs : s.arena.Steady) (hrewound : s.arena.head = 0)
    (h : s.allocate .tail size category = (.ok offset, s')) :
    (Demand.block size).Met s.arena ∧ (Demand.block size).Moved s.arena s'.arena ∧
      offset = s'.arena.tail := by
  rcases hs.allocate_tail size with ⟨hroom, heq⟩ | ⟨hroom, e, heq⟩
  · obtain ⟨rfl, harena⟩ := Prod.mk.inj (Except.ok.inj (heq.symm.trans (allocate_granted h)))
    rw [← harena]
    exact ⟨Demand.met_block_iff.mpr hroom,
      ⟨rfl, hrewound, (Nat.max_eq_left (Nat.zero_le _)).symm, rfl⟩, rfl⟩
  · cases heq.symm.trans (allocate_granted h)

theorem allocate_tail_refused {e : MemoryError} (hs : s.arena.Steady)
    (h : s.allocate .tail size category = (.error e, s')) : ¬ (Demand.block size).Met s.arena := by
  rcases hs.allocate_tail size with ⟨hroom, heq⟩ | ⟨hroom, e, heq⟩
  · cases heq.symm.trans (allocate_refused h)
  · exact fun hmet => hroom (Demand.met_block_iff.mp hmet)

end Site

namespace Pass

variable {σ π ε α β : Type} {capacity : Nat}

/-- On every arena of the capacity with its head rewound, the pass succeeds when the demand is met
and only then; it moves the positions by the demand, and `result` holds of its answer. -/
def Takes (capacity : Nat) (p : Pass σ π ε α) (d : Demand) (result : α → Prop) : Prop :=
  ∀ s : Site σ π, s.arena.Steady → s.arena.head = 0 → s.arena.capacity = capacity →
    p.Runs s (fun a s' => d.Met s.arena ∧ d.Moved s.arena s'.arena ∧ result a)
      (fun _ _ => ¬ d.Met s.arena)

theorem Takes.bind {p : Pass σ π ε α} {f : α → Pass σ π ε β} {d d' : Demand} {mid : α → Prop}
    {result : β → Prop} (hp : p.Takes capacity d mid) (hhead : d.head = 0)
    (hf : ∀ a, mid a → (f a).Takes capacity d' result) :
    (p >>= f).Takes capacity (d.andThen d') result := by
  intro s hs hrewound hcapacity
  refine ((hp s hs hrewound hcapacity).mono (fun _ _ h => h) fun _ _ hunmet hmet =>
    hunmet hmet.of_andThen).bind fun a s₁ ⟨hmet, hmoved, ha⟩ => ?_
  have hmet' : (d.andThen d').Met s.arena ↔ d'.Met s₁.arena := Demand.met_andThen_iff hmoved hmet
  refine (hf a ha s₁ (hmoved.steady hmet hs) (hmoved.head_eq.trans hhead)
    (hmoved.capacity_eq.trans hcapacity)).mono ?_ ?_
  · rintro b s₂ ⟨h, hmoved', hb⟩
    exact ⟨hmet'.mpr h, hmoved.andThen hmoved' hhead, hb⟩
  · intro e s₂ h
    exact fun hboth => h (hmet'.mp hboth)

theorem Takes.of_pure {a : α} {result : α → Prop} (h : result a) :
    (Pure.pure a : Pass σ π ε α).Takes capacity .none result :=
  fun _ hs hrewound _ => .of_pure ⟨Demand.met_none hs, Demand.moved_none hrewound rfl rfl, h⟩

/-- What is done with the answer alone takes nothing. -/
theorem Takes.bind_pure {p : Pass σ π ε α} {f : α → β} {d : Demand} {mid : α → Prop}
    {result : β → Prop} (hp : p.Takes capacity d mid) (hf : ∀ a, mid a → result (f a)) :
    (p >>= fun a => Pure.pure (f a)).Takes capacity d result :=
  fun s hs hrewound hcapacity => (hp s hs hrewound hcapacity).bind
    fun a _ ⟨hmet, hmoved, ha⟩ => .of_pure ⟨hmet, hmoved, hf a ha⟩

theorem reserve_tail_exact {s : Site σ π} (hs : s.arena.Steady) (hrewound : s.arena.head = 0)
    (size : Nat) (category : Category) :
    (reserve .tail size category).Runs s
      (fun offset s' => (Demand.block size).Met s.arena ∧
        (Demand.block size).Moved s.arena s'.arena ∧ offset = s'.arena.tail)
      (fun _ _ => ¬ (Demand.block size).Met s.arena) := by
  unfold Runs exec reserve
  simp only [ExceptT.run_mk, StateT.run]
  cases h : s.allocate .tail size category with
  | mk answer s' =>
    cases answer with
    | ok offset => exact Site.allocate_tail_exact hs hrewound h
    | error e => exact Site.allocate_tail_refused hs h

theorem reserve_head_exact {s : Site σ π} (hrewound : s.arena.head = 0) (size : Nat)
    (category : Category) :
    (reserve .head size category).Runs s
      (fun offset s' => size ≤ s.arena.tail ∧ offset = 0 ∧
        s'.arena = { s.arena with head := size, watermark := max s.arena.watermark size })
      (fun _ _ => ¬ size ≤ s.arena.tail) := by
  unfold Runs exec reserve
  simp only [ExceptT.run_mk, StateT.run]
  rcases Arena.allocate_head_of_rewound hrewound size with ⟨hroom, heq⟩ | ⟨hroom, e, heq⟩
  · cases h : s.allocate .head size category with
    | mk answer s' =>
      cases answer with
      | ok offset =>
        obtain ⟨rfl, harena⟩ :=
          Prod.mk.inj (Except.ok.inj (heq.symm.trans (Site.allocate_granted h)))
        exact ⟨hroom, rfl, harena.symm⟩
      | error e => cases heq.symm.trans (Site.allocate_refused h)
  · cases h : s.allocate .head size category with
    | mk answer s' =>
      cases answer with
      | ok offset => cases heq.symm.trans (Site.allocate_granted h)
      | error e => exact hroom

theorem reserve_tail_takes (size : Nat) (category : Category) :
    (reserve .tail size category : Pass σ π AllocationError Nat).Takes capacity (.block size)
      fun offset => offset + size ≤ capacity := by
  intro s hs hrewound hcapacity
  refine (reserve_tail_exact hs hrewound size category).mono ?_ fun _ _ h => h
  rintro offset s' ⟨hmet, hmoved, rfl⟩
  refine ⟨hmet, hmoved, ?_⟩
  have hsize : size ≤ alignUp size arenaAlignment := le_alignUp (by decide) _
  have htail := hs.kept.tail_le
  obtain ⟨-, -, hroom⟩ := hmet
  rw [hmoved.tail_eq, ← hcapacity]
  simp only [Demand.block] at hroom ⊢
  omega

end Pass

end TensorArena
