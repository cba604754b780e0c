import TensorArena.Kernel.Sample
import TensorArena.Proofs.Interpreter.Calls
import TensorArena.Proofs.Plan.Order

/-!
# Tenants of one store

Any number of interpreters share one store, and the holder of the store asks it for blocks of its
own, writes into them, holds the store against the interpreters, and uses profilers that they have
too. A `Tenancy` is the site, the interpreters, and a deed for every block: who asked for it. `step` is
one action of anybody, `run` any number of actions in any order; actions may fail, and what they did
before they failed stays done.
-/

namespace TensorArena

variable {σ π : Type}

namespace Site

/-- A site over a fresh recorder, whose own block is the first one. -/
theorem recorded_sound {address : Nat} {buffer : Memory} {log : Log} {r : Recorder}
    (h : Recorder.create (.ofBuffer address buffer) = (log, .ok r)) (outside : σ) (profile : π) :
    ∃ offset, Sound (σ := σ) (π := π)
      { store := .recorded r
        outside, profile
        granted := [⟨.tail, ⟨offset, Recorder.bookkeepingBytes⟩, arenaAlignment⟩] } := by
  unfold Recorder.create Recorder.allocate at h
  dsimp only at h
  cases hallocate : (Arena.ofBuffer address buffer).allocate .tail Recorder.bookkeepingBytes
    arenaAlignment with
  | error e =>
    rw [hallocate] at h
    cases h
  | ok answer =>
    obtain ⟨offset, arena⟩ := answer
    rw [hallocate] at h
    cases h
    have hg := Arena.allocate_ok hallocate (Arena.ofBuffer_wellKept address buffer)
    refine ⟨offset, hg.kept, fun b hb => ?_, List.pairwise_singleton _ _⟩
    obtain rfl := List.mem_singleton.mp hb
    exact hg.holds

end Site

/-- A strategy with the contract that strategies keep. -/
structure SoundStrategy where
  strategy : Strategy
  sound : strategy.Sound

namespace SoundStrategy

def firstFit : SoundStrategy :=
  ⟨.firstFit, Strategy.firstFit_sound⟩

/-- First fit, so that its plans can be computed. -/
theorem firstFit_eq : firstFit =
    ⟨⟨FirstFit.name, FirstFit.placeByInsertion, true⟩, Strategy.firstFit_eq ▸ Strategy.firstFit_sound⟩ := by
  unfold firstFit
  congr 1
  exact Strategy.firstFit_eq

end SoundStrategy

/-- Who asked for a block: the holder of the store, or a tenant by its number. -/
inductive Owner where
  | holder
  | tenant (number : Nat)
  deriving DecidableEq, Repr

/-- A block and its owner. -/
structure Deed where
  owner : Owner
  block : Block
  deriving DecidableEq, Repr

/-- A store with its tenants. A tenant that was dropped leaves its place empty. -/
structure Tenancy (σ π : Type) where
  site : Site σ π
  tenants : List (Option (Interpreter σ π)) := []
  deeds : List Deed := []

/-- What somebody can do with a store. -/
inductive Tenancy.Action (σ π : Type) where
  /-- A new tenant moves in. -/
  | enter (g : CheckedGraph) (resolver : Resolver σ)
  | equip (number : Nat) (strategy : SoundStrategy) (profiler : Option (Profiler π))
      (profiling : Bool)
  | setContext (number : Nat) (value : Int)
  | allocate (number : Nat)
  /-- Other bytes for a tensor, through a handle for writing. -/
  | write (number id : Nat) (bytes : Bytes)
  | invoke (number : Nat)
  | drop (number : Nat)
  /-- The holder of the store asks it for a block. -/
  | request (region : Region) (size align : Nat) (category : Category)
  | rewind
  /-- The holder of the store writes into a block of its own. -/
  | poke (block : Block) (offset : Nat) (bytes : Bytes)
  | hold (hold : Hold)
  /-- The holder uses profilers, or stops using them. -/
  | profile (change : π → π)

/-- Puts other bytes into a tensor, if a handle for writing it can be had and they are as many. -/
def Interpreter.overwrite (i : Interpreter σ π) (s : Site σ π) (id : Nat) (bytes : Bytes) :
    Site σ π :=
  match i.writableTensor s id with
  | .error _ => s
  | .ok h =>
    if bytes.length = h.slice.bytes.length then
      s.put { h with slice := ⟨h.slice.address, bytes⟩ }
    else s

theorem Graph.Sample.complex_check : complex.check = .ok () :=
  rfl

namespace Tenancy

/-- A store before the first tenant: all blocks there are belong to the holder. -/
def start (s : Site σ π) : Tenancy σ π where
  site := s
  deeds := s.granted.map (Deed.mk .holder)

/-- The interpreter of a tenant, until it is dropped. -/
def tenant? (t : Tenancy σ π) (number : Nat) : Option (Interpreter σ π) :=
  (t.tenants[number]?).join

/-- Who acts. -/
def actor (t : Tenancy σ π) : Action σ π → Owner
  | .enter .. => .tenant t.tenants.length
  | .equip n .. | .setContext n _ | .allocate n | .write n .. | .invoke n | .drop n => .tenant n
  | .request .. | .rewind | .poke .. | .hold _ | .profile _ => .holder

/-- A call on the interpreter of a tenant. -/
def call (t : Tenancy σ π) (number : Nat)
    (f : Interpreter σ π → Site σ π → Interpreter σ π × Site σ π) :
    Site σ π × List (Option (Interpreter σ π)) :=
  match t.tenant? number with
  | none => (t.site, t.tenants)
  | some i => ((f i t.site).2, t.tenants.set number (some (f i t.site).1))

/-- The site and the interpreters after an action. -/
def act (t : Tenancy σ π) : Action σ π → Site σ π × List (Option (Interpreter σ π))
  | .enter g resolver =>
    match Interpreter.create g resolver t.site with
    | (.ok i, s) => (s, t.tenants ++ [some i])
    | (.error _, s) => (s, t.tenants)
  | .equip n strategy profiler profiling =>
    t.call n fun i s => ({ i with strategy := strategy.strategy, profiler, profiling }, s)
  | .setContext n value => t.call n fun i s => (i.setContext value s).2
  | .allocate n => t.call n fun i s => (i.allocate s).2
  | .write n id bytes => t.call n fun i s => (i, i.overwrite s id bytes)
  | .invoke n => t.call n fun i s => (i.invoke s).2
  | .drop n =>
    match t.tenant? n with
    | none => (t.site, t.tenants)
    | some i => (i.drop t.site, t.tenants.set n none)
  | .request region size align category =>
    ((t.site.request region size align category).2, t.tenants)
  | .rewind => (t.site.rewind, t.tenants)
  | .poke block offset bytes =>
    if ⟨.holder, block⟩ ∈ t.deeds ∧ block.range.offset ≤ offset ∧
        offset + bytes.length ≤ block.range.stop then
      (t.site.mapMemory fun m => m.write offset bytes, t.tenants)
    else (t.site, t.tenants)
  | .hold hold => ({ t.site with hold }, t.tenants)
  | .profile change => ({ t.site with profile := change t.site.profile }, t.tenants)

/-- One action. Whoever acts owns the blocks that were granted meanwhile. -/
def step (t : Tenancy σ π) (action : Action σ π) : Tenancy σ π where
  site := (t.act action).1
  tenants := (t.act action).2
  deeds := (t.site.fresh (t.act action).1).map (Deed.mk (t.actor action)) ++ t.deeds

/-- Actions in order. -/
def run (t : Tenancy σ π) (actions : List (Action σ π)) : Tenancy σ π :=
  actions.foldl step t

/-- A small store without tenants, in a buffer that starts at no aligned address. -/
def sampleStart : Tenancy Unit Unit :=
  start (.ofBuffer 7 (.replicate 600 255) () ())

/-- The holder takes a block, and two tenants move in, each with a chain of three sums. They have their
scratch blocks in the same bytes, and each writes its second sum over its input. -/
def sampleActions (strategy : SoundStrategy) : List (Action Unit Unit) :=
  [.request .tail 16 16 .allocatorInternal,
    .enter ⟨Graph.Sample.complex, Graph.Sample.complex_check⟩ fun _ =>
      some (.always (SampleKernel.mockCustom id)),
    .equip 0 strategy none true, .allocate 0,
    .enter ⟨Graph.Sample.complex, Graph.Sample.complex_check⟩ fun _ =>
      some (.always (SampleKernel.mockCustom id)),
    .equip 1 strategy none true, .allocate 1,
    .rewind, .write 0 0 [21, 0, 0, 0], .write 1 0 [5, 0, 0, 0], .write 1 1 [2, 0, 0, 0], .invoke 0,
    .invoke 1]

/-- Both tenants are allocated. -/
theorem sample_tenants :
    ∃ i j, (sampleStart.run (sampleActions .firstFit)).tenant? 0 = some i ∧
      i.state = .allocated ⟨512, 448, 336⟩ ∧
      (sampleStart.run (sampleActions .firstFit)).tenant? 1 = some j ∧
      j.state = .allocated ⟨288, 224, 112⟩ := by
  have hstates :
      (sampleStart.run (sampleActions .firstFit)).tenants.map (Option.map Interpreter.state) =
        [some (.allocated ⟨512, 448, 336⟩), some (.allocated ⟨288, 224, 112⟩)] := by
    rw [SoundStrategy.firstFit_eq]
    decide +kernel
  obtain ⟨_, rest, htenants, hfirst, hrest⟩ := List.map_eq_cons_iff.mp hstates
  obtain ⟨_, _, rfl, hsecond, -⟩ := List.map_eq_cons_iff.mp hrest
  obtain ⟨i, rfl, hi⟩ := Option.map_eq_some_iff.mp hfirst
  obtain ⟨j, rfl, hj⟩ := Option.map_eq_some_iff.mp hsecond
  exact ⟨i, j, by rw [tenant?, htenants]; rfl, hi, by rw [tenant?, htenants]; rfl, hj⟩

/-- The offset lies in a block of the owner. -/
def Owns (t : Tenancy σ π) (owner : Owner) (x : Nat) : Prop :=
  ∃ b, ⟨owner, b⟩ ∈ t.deeds ∧ b.range.Covers x

/-! ## The invariant -/

/-- What holds of a tenant at all times: once its interpreter knows its tables, it is lodged in blocks
of its own. -/
structure Tenant (t : Tenancy σ π) (number : Nat) (i : Interpreter σ π) : Prop where
  made : i.Made
  strategy : i.strategy.Sound
  lodged : ∀ tables, i.state.tables? = some tables → ∃ a, i.Lodged tables a t.site.memory ∧
    ∀ b ∈ a.blocks, ⟨.tenant number, b⟩ ∈ t.deeds

/-- What all runs keep. -/
structure Sound (t : Tenancy σ π) : Prop where
  site : t.site.Sound
  deeds : t.deeds.map Deed.block = t.site.granted
  tenants : ∀ n i, t.tenant? n = some i → t.Tenant n i

theorem start_sound {s : Site σ π} (hs : s.Sound) : (start s).Sound where
  site := hs
  deeds := by
    rw [start, List.map_map]
    exact List.map_id _
  tenants := nofun

variable {t : Tenancy σ π}

/-- Blocks of different deeds are apart, unless both are of the head. -/
theorem Sound.clear (h : t.Sound) : t.deeds.Pairwise fun d d' => d.block.Clear d'.block := by
  have hclear := h.site.clear
  rw [← h.deeds, List.pairwise_map] at hclear
  exact hclear

/-- No offset in a block of the tail is in a block of another owner. -/
theorem Sound.not_owns (h : t.Sound) {d : Deed} (hd : d ∈ t.deeds)
    (htail : d.block.region = .tail) {owner : Owner} (hne : d.owner ≠ owner) {x : Nat}
    (hx : d.block.range.Covers x) : ¬ t.Owns owner x := by
  rintro ⟨b, hb, hcovers⟩
  have hrel : d.block.Clear b := rel_of_mem_of_pairwise (fun _ _ hc => hc.symm) h.clear hd hb
    fun heq => hne (congrArg Deed.owner heq)
  exact hrel (.inl htail) x hx hcovers

end Tenancy

end TensorArena
