import TensorArena.Interpreter.Access
import TensorArena.Kernel.Sample
import TensorArena.Proofs.Footprint.Commit
import TensorArena.Proofs.Interpreter.Calls

/-!
# The footprint of one interpreter

An interpreter is predictable when its strategy takes the capacity as a limit and nothing more, and
when what its kernels ask for is settled by the declarations they see. What allocating it takes is then
a demand, which does not depend on the site. So the bytes that one allocation used in a fresh arena are
what every fresh arena needs, and all that it needs.
-/

namespace TensorArena

variable {σ π : Type}

/-! ## Fresh arenas -/

namespace Site

/-- A site whose store is a plain arena that nothing was taken from, and that nobody holds. -/
structure Fresh (s : Site σ π) : Prop where
  free : s.hold = .free
  granted : s.granted = []
  plain : ∃ address buffer, s.store = .plain (.ofBuffer address buffer)

theorem ofBuffer_fresh (address : Nat) (buffer : Memory) (outside : σ) (profile : π) :
    (ofBuffer address buffer outside profile).Fresh :=
  ⟨rfl, rfl, address, buffer, rfl⟩

/-- A fresh site over zeros, for kernels that keep nothing outside the arena. -/
def zeroed (address size : Nat) : Site Unit Unit :=
  .ofBuffer address (.replicate size 0) () ()

theorem zeroed_fresh (address size : Nat) : (zeroed address size).Fresh :=
  ofBuffer_fresh ..

/-- A site that an interpreter can be allocated on. -/
structure Open (s : Site σ π) : Prop where
  sound : s.Sound
  aligned : arenaAlignment ∣ s.arena.tail
  free : s.hold = .free

theorem Open.steady {s : Site σ π} (h : s.Open) : s.arena.Steady :=
  ⟨h.sound.kept, h.aligned⟩

theorem Fresh.arena_eq {s : Site σ π} (h : s.Fresh) :
    ∃ address buffer, s.arena = .ofBuffer address buffer := by
  obtain ⟨address, buffer, hstore⟩ := h.plain
  refine ⟨address, buffer, ?_⟩
  rw [arena, hstore]
  rfl

theorem Fresh.isOpen {s : Site σ π} (h : s.Fresh) : s.Open := by
  obtain ⟨address, buffer, harena⟩ := h.arena_eq
  have hsteady := Arena.ofBuffer_steady address buffer
  rw [← harena] at hsteady
  refine ⟨⟨hsteady.kept, ?_, ?_⟩, hsteady.aligned, h.free⟩
  · rw [h.granted]
    exact nofun
  · rw [h.granted]
    exact .nil

theorem Fresh.watermark_eq {s : Site σ π} (h : s.Fresh) : s.arena.watermark = 0 := by
  obtain ⟨address, buffer, harena⟩ := h.arena_eq
  rw [harena]
  rfl

theorem Fresh.tail_eq {s : Site σ π} (h : s.Fresh) : s.arena.tail = s.store.capacity := by
  obtain ⟨address, buffer, harena⟩ := h.arena_eq
  change _ = s.arena.capacity
  rw [harena, Arena.capacity_ofBuffer]

theorem Fresh.met_iff {s : Site σ π} (h : s.Fresh) (d : Demand) :
    d.Met s.arena ↔ d.fits s.store.capacity ∧ d.head + d.tail ≤ s.store.capacity := by
  rw [Demand.Met, h.watermark_eq, h.tail_eq, Nat.zero_add]
  exact and_congr_right fun _ => and_iff_right_of_imp fun hle => by omega

end Site

/-! ## What an interpreter takes -/

/-- The bytes that are in use at the ends of an arena. -/
structure Footprint where
  head : Nat
  tail : Nat
  deriving DecidableEq, Repr

def Demand.footprint (d : Demand) : Footprint :=
  ⟨d.head, d.tail⟩

def Site.footprint (s : Site σ π) : Footprint :=
  ⟨s.store.headUsed, s.store.tailUsed⟩

namespace Interpreter

/-- The interpreter is yet to be allocated, and what allocating it asks for is settled: its strategy
takes the capacity as a limit, and its kernels make requests that only depend on the declarations they
see, and return the error of a request that is refused. -/
structure Predictable (i : Interpreter σ π) : Prop where
  created : i.state = .created
  kernels_length : i.kernels.length = i.graph.operators.length
  uniform : i.strategy.Uniform
  settled : ∀ p ∈ i.graph.operators.zip i.kernels,
    ∃ r, (p.2.prepare (.of i.graph.toGraph p.1)).Makes r

/-- Allocating the interpreter on the site takes exactly the demand. -/
structure Takes (i : Interpreter σ π) (d : Demand) (s : Site σ π) : Prop where
  ok_iff : (i.allocate s).1 = .ok () ↔ d.Met s.arena
  moved : (i.allocate s).1 = .ok () → d.Moved s.arena (i.allocate s).2.2.arena
  since : s.Since (i.allocate s).2.2

variable {i : Interpreter σ π} {d : Demand} {s : Site σ π}

theorem Takes.isOpen (h : i.Takes d s) (hs : s.Open) (hok : (i.allocate s).1 = .ok ()) :
    (i.allocate s).2.2.Open where
  sound := h.since.sound
  aligned := ((h.moved hok).steady (h.ok_iff.mp hok) hs.steady).aligned
  free := h.since.hold_eq.trans hs.free

theorem Predictable.since (hi : i.Predictable) (hs : s.Sound) : s.Since (i.allocate s).2.2 := by
  have hallocating := i.allocating hs hi.kernels_length hi.uniform.sound
  generalize i.allocate s = outcome at hallocating
  obtain ⟨answer, i', s'⟩ := outcome
  cases hallocating with
  | stayed => exact .refl hs
  | done _ _ hcommitted hquiet => exact hcommitted.since.quiet hquiet
  | failed _ hsince => exact hsince

/-- An allocation ends as its pass does, and the pass is exact. -/
theorem allocate_exact (hi : i.Predictable) {rs : List Requests}
    (h : List.Forall₂ (fun p r => (p.2.prepare (.of i.graph.toGraph p.1)).Makes r)
      (i.graph.operators.zip i.kernels) rs) (hs : s.Open)
    (hd : d = .commit i.graph.toGraph i.strategy rs) :
    ((i.allocate s).1 = .ok () ∧ d.Met s.arena ∧ d.Moved s.arena (i.allocate s).2.2.arena) ∨
      ((i.allocate s).1 ≠ .ok () ∧ ¬ d.Met s.arena) := by
  have hruns := Pass.commit_exact hi.uniform h hs.steady
  rw [← hd] at hruns
  unfold Pass.Runs Pass.exec at hruns
  unfold allocate
  rw [hi.created]
  dsimp only
  rw [if_neg (not_not_intro hs.free)]
  cases hexec : (Pass.commit i.graph.toGraph i.kernels i.strategy).run.run s with
  | mk answer s' =>
    rw [hexec] at hruns
    cases answer with
    | ok tables => exact .inl ⟨rfl, hruns⟩
    | error e => exact .inr ⟨nofun, hruns⟩

theorem forall₂_of_forall_exists {α β : Type} {R : α → β → Prop} {l : List α}
    (h : ∀ a ∈ l, ∃ b, R a b) : ∃ bs, List.Forall₂ R l bs := by
  induction l with
  | nil => exact ⟨[], .nil⟩
  | cons a rest ih =>
    obtain ⟨⟨b, hb⟩, hrest⟩ := List.forall_mem_cons.mp h
    obtain ⟨bs, hbs⟩ := ih hrest
    exact ⟨b :: bs, .cons hb hbs⟩

/-- What a predictable interpreter takes is one demand on all sites. -/
theorem Predictable.takes (hi : i.Predictable) :
    ∃ d : Demand, d.Moves ∧ ∀ s : Site σ π, s.Open → i.Takes d s := by
  obtain ⟨rs, hrs⟩ := forall₂_of_forall_exists hi.settled
  refine ⟨_, Demand.commit_moves hi.uniform i.graph.toGraph rs, fun s hs => ?_⟩
  rcases allocate_exact hi hrs hs rfl with ⟨hok, hmet, hmoved⟩ | ⟨hfailed, hunmet⟩
  · exact ⟨iff_of_true hok hmet, fun _ => hmoved, hi.since hs.sound⟩
  · exact ⟨iff_of_false hfailed hunmet, fun hok => absurd hok hfailed, hi.since hs.sound⟩

/-- In a fresh arena the bytes of the demand are in use afterwards, and no others. -/
theorem Takes.footprint_eq (h : i.Takes d s) (hs : s.Fresh) (hok : (i.allocate s).1 = .ok ()) :
    (i.allocate s).2.2.footprint = d.footprint := by
  have hmet := (hs.met_iff d).mp (h.ok_iff.mp hok)
  have hmoved := h.moved hok
  have hhead : (i.allocate s).2.2.store.headUsed = d.head := by
    change (i.allocate s).2.2.arena.watermark = _
    rw [hmoved.watermark_eq, hs.watermark_eq]
    exact Nat.max_eq_right (Nat.zero_le _)
  have htail : (i.allocate s).2.2.store.tailUsed = d.tail := by
    change (i.allocate s).2.2.arena.capacity - (i.allocate s).2.2.arena.tail = _
    have hcapacity : s.arena.capacity = s.store.capacity := rfl
    rw [hmoved.capacity_eq, hmoved.tail_eq, hs.tail_eq, hcapacity]
    omega
  rw [Site.footprint, hhead, htail]
  rfl

theorem Takes.usedBytes_eq (h : i.Takes d s) (hs : s.Fresh) (hok : (i.allocate s).1 = .ok ()) :
    usedBytes (i.allocate s).2.2 = .ok (d.head + d.tail) := by
  obtain ⟨hhead, htail⟩ := Footprint.mk.inj (h.footprint_eq hs hok)
  have hfree := (h.isOpen hs.isOpen hok).free
  unfold usedBytes
  rw [hfree, if_neg nofun, ← hhead, ← htail]
  rfl

/-- The bytes that an allocation used in a fresh arena are the exact requirement: every fresh arena
that 32-bit words reach is large enough when it has as many bytes, and only then, and the interpreter
uses as many there. In particular a buffer of the required size is large enough, at any address. -/
theorem Predictable.usedBytes_exact (hi : i.Predictable) (hs : s.Fresh)
    (hok : (i.allocate s).1 = .ok ()) {used : Nat} (hused : usedBytes (i.allocate s).2.2 = .ok used)
    (hle : used ≤ 2 ^ 32 - 64) :
    (∀ t : Site σ π, t.Fresh → t.store.capacity < 2 ^ 32 →
      ((i.allocate t).1 = .ok () ↔ used ≤ t.store.capacity) ∧
      ((i.allocate t).1 = .ok () → usedBytes (i.allocate t).2.2 = .ok used)) ∧
    ∀ (t : Site σ π) (address : Nat) (buffer : Memory), t.Fresh →
      t.store = .plain (.ofBuffer address buffer) → buffer.size = requiredBufferSize used →
        (i.allocate t).1 = .ok () ∧ usedBytes (i.allocate t).2.2 = .ok used := by
  obtain ⟨d, hmoves, htakes⟩ := hi.takes
  obtain ⟨hfits, -⟩ := (hs.met_iff d).mp ((htakes s hs.isOpen).ok_iff.mp hok)
  obtain rfl : used = d.head + d.tail :=
    Except.ok.inj (hused.symm.trans ((htakes s hs.isOpen).usedBytes_eq hs hok))
  have hany : ∀ t : Site σ π, t.Fresh → t.store.capacity < 2 ^ 32 →
      ((i.allocate t).1 = .ok () ↔ d.head + d.tail ≤ t.store.capacity) := by
    intro t ht hreach
    rw [(htakes t ht.isOpen).ok_iff, ht.met_iff]
    refine and_iff_right_of_imp fun hroom => hmoves _ _ hfits (by omega) ?_
    exact Nat.le_of_lt_succ hreach
  refine ⟨fun t ht hreach => ⟨hany t ht hreach, (htakes t ht.isOpen).usedBytes_eq ht⟩, ?_⟩
  intro t address buffer ht hstore hsize
  obtain ⟨hroom, hcapacity⟩ := Arena.capacity_ofBuffer_of_required address hsize
  have hstored : t.store.capacity = (Arena.ofBuffer address buffer).capacity := by
    rw [hstore]
    rfl
  rw [← hstored] at hroom hcapacity
  have hround : requiredBufferSize (d.head + d.tail) < 2 ^ 32 := by
    rw [requiredBufferSize, alignUp_of_isPowerOfTwo (by decide)]
    simp only [arenaAlignment]
    omega
  have hallocated := (hany t ht (Nat.lt_of_le_of_lt hcapacity hround)).mpr hroom
  exact ⟨hallocated, (htakes t ht.isOpen).usedBytes_eq ht hallocated⟩

/-- An interpreter whose kernel asks for a scratch block and for persistent data. -/
def stateful : Interpreter Unit Unit where
  graph := ⟨Graph.Sample.stateful 3, rfl⟩
  kernels := [SampleKernel.simpleStateful id]
  strategy := .linear

theorem stateful_predictable : stateful.Predictable where
  created := rfl
  kernels_length := rfl
  uniform := Strategy.linear_uniform
  settled := List.forall_mem_singleton.mpr ⟨.scratch 3 (.persistent 4 .done),
    .scratch (fun _ => .persistent (fun _ => .done) .fail) .fail⟩

theorem usedBytes_exact_of_stateful :
    usedBytes (stateful.allocate (.zeroed 0 1024)).2.2 = .ok 144 ∧
      (stateful.allocate (.zeroed 5 (requiredBufferSize 144))).1 = .ok () ∧
      usedBytes (stateful.allocate (.zeroed 5 (requiredBufferSize 144))).2.2 = .ok 144 := by
  have hok : (stateful.allocate (.zeroed 0 1024)).1 = .ok () := by decide +kernel
  have hused : usedBytes (stateful.allocate (.zeroed 0 1024)).2.2 = .ok 144 := by decide +kernel
  have hexact := stateful_predictable.usedBytes_exact (Site.zeroed_fresh ..) hok hused (by decide)
  exact ⟨hused, hexact.2 _ 5 _ (Site.zeroed_fresh ..) rfl rfl⟩

end Interpreter

end TensorArena
