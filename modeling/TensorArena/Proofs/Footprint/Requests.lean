import Mathlib.Data.List.Forall2
import TensorArena.Proofs.Footprint.Demand
import TensorArena.Proofs.Interpreter.Prepare

/-!
# What kernels ask for

A kernel whose requests depend on nothing but the declarations it sees makes the same requests
whatever it is answered. `Requests` lists them, and `Preparation.Makes` says that a preparation makes
them, and that it returns the error of a request that is refused.

What such a kernel is granted follows from the list: `Requests.need?` sums it up without an arena, and
it is absent when the kernel fails in every arena. The demand of preparing the kernel, and of
preparing a list of kernels, is made from it.
-/

namespace TensorArena

variable {σ π : Type}

/-- The requests of a kernel, and how it ends. -/
inductive Requests where
  | done
  | fail (e : KernelError)
  | scratch (size : Nat) (rest : Requests)
  | persistent (size : Nat) (rest : Requests)
  deriving DecidableEq, Repr

/-- The preparation makes these requests whatever the answers are. After a refusal it asks for nothing
more and fails with the error it was given. -/
inductive Preparation.Makes : Preparation σ → Requests → Prop
  | done : Makes .done .done
  | fail (e : KernelError) : Makes (.fail e) (.fail e)
  | scratch {size : Nat} {granted : Nat → Preparation σ} {refused : KernelError → Preparation σ}
      {rest : Requests} (hgranted : ∀ index, Makes (granted index) rest)
      (hrefused : ∀ e, Makes (refused e) (.fail e)) :
      Makes (.scratch size granted refused) (.scratch size rest)
  | persistent {size : Nat} {fill : Bytes → Bytes} {granted : Bytes → Preparation σ}
      {refused : KernelError → Preparation σ} {rest : Requests}
      (hgranted : ∀ before, Makes (granted before) rest)
      (hrefused : ∀ e, Makes (refused e) (.fail e)) :
      Makes (.persistent size fill granted refused) (.persistent size rest)
  | outside {change : σ → σ} {next : σ → Preparation σ} {r : Requests}
      (hnext : ∀ value, Makes (next value) r) : Makes (.outside change next) r

/-- The sizes of what a kernel is granted. -/
structure Need where
  scratch : List Nat := []
  persistent : Option Nat := none
  deriving DecidableEq, Repr

/-- What is granted in the end, after what was granted before; absent when a request breaks the limits
of an operator or the kernel fails by itself. -/
def Requests.need? : Requests → Need → Option Need
  | .done, n => some n
  | .fail _, _ => none
  | .scratch size rest, n =>
    if n.scratch.length = maxScratch then none
    else rest.need? { n with scratch := n.scratch ++ [size] }
  | .persistent size rest, n =>
    if n.persistent.isSome then none else rest.need? { n with persistent := some size }

theorem Requests.persistent_of_need? {r : Requests} {n n' : Need} {size : Nat}
    (h : r.need? n = some n') (hn : n.persistent = some size) : n'.persistent = some size := by
  induction r generalizing n with
  | done =>
    cases h
    exact hn
  | fail e => cases h
  | scratch _ rest ih =>
    rw [need?] at h
    split at h
    · cases h
    · exact ih h hn
  | persistent _ rest _ =>
    rw [need?, hn] at h
    cases h

namespace Need

/-- The blocks of the tail that a kernel takes. -/
def blocks (n : Need) : Demand :=
  match n.persistent with
  | none => .none
  | some size => .block size

/-- The same blocks when their ranges are entered in the operator table. -/
def demand (n : Need) : Demand :=
  match n.persistent with
  | none => .none
  | some size => .spanned size

/-- The grant in an arena whose tail the kernel left at `tail`. -/
def grant (n : Need) (tail : Nat) : Grant :=
  ⟨n.scratch, n.persistent.map fun size => ⟨tail, size⟩⟩

theorem head_demand (n : Need) : n.demand.head = 0 := by
  unfold demand
  split
  · rfl
  · rfl

theorem demand_moves (n : Need) : n.demand.Moves := by
  unfold demand
  split
  · exact Demand.none_moves
  · exact Demand.spanned_moves _

/-- The range of the persistent data can be entered in the operator table. -/
def Numbered (n : Need) (tail : Nat) : Prop :=
  ∀ size, n.persistent = some size → tail + size ≤ Word.max32

theorem met_demand_iff (n : Need) {a a' : Arena} (h : n.blocks.Moved a a') :
    n.demand.Met a ↔ n.blocks.Met a ∧ n.Numbered a'.tail := by
  unfold demand Numbered
  unfold blocks at h ⊢
  split at h
  · rename_i hnone
    rw [hnone]
    exact (and_iff_left nofun).symm
  · rename_i size hsome
    rw [hsome, Demand.met_spanned_iff h]
    simp

theorem moved_demand (n : Need) {a a' : Arena} (h : n.blocks.Moved a a') : n.demand.Moved a a' := by
  unfold demand
  unfold blocks at h
  split at h
  · exact h
  · exact h.spanned

theorem met_blocks (n : Need) {a : Arena} (h : n.demand.Met a) : n.blocks.Met a := by
  unfold blocks
  unfold demand at h
  split at h
  · exact h
  · exact ⟨trivial, h.2⟩

theorem userSpan_ok_iff (n : Need) (tail : Nat) :
    (∃ span, Pass.userSpan (n.grant tail).userData = .ok span) ↔ n.Numbered tail := by
  unfold Numbered grant
  cases n.persistent with
  | none => exact iff_of_true ⟨_, rfl⟩ nofun
  | some size =>
    refine ⟨fun ⟨span, h⟩ _ heq => ?_, fun h => ⟨_, Span.make_eq_ok (h size rfl)⟩⟩
    cases heq
    exact (Span.make_ok h).2.2

end Need

def Grant.need (g : Grant) : Need :=
  ⟨g.scratch, g.userData.map ByteRange.length⟩

/-! ## One kernel -/

namespace Preparation

theorem Makes.run_fail {p : Preparation σ} {e : KernelError} (h : p.Makes (.fail e)) (g : Grant)
    (s : Site σ π) : (p.run g s).1 = .error e := by
  generalize hr : Requests.fail e = r at h
  induction h generalizing s with
  | done => cases hr
  | fail e' =>
    cases hr
    rfl
  | scratch => cases hr
  | persistent => cases hr
  | outside _ ih => exact ih _ _ hr

/-- Where the walk over a preparation ends. -/
def Ends (p : Preparation σ) (g : Grant) (s : Site σ π) (ok : Grant → Site σ π → Prop)
    (failed : Prop) : Prop :=
  match p.run g s with
  | (.ok g', s') => ok g' s'
  | (.error _, _) => failed

theorem Ends.of_error {p : Preparation σ} {g : Grant} {s : Site σ π} {e : KernelError}
    (h : (p.run g s).1 = .error e) {ok : Grant → Site σ π → Prop} {failed : Prop} (hf : failed) :
    p.Ends g s ok failed := by
  unfold Ends
  split
  · rename_i heq
    rw [heq] at h
    cases h
  · exact hf

theorem Ends.mono {p : Preparation σ} {g : Grant} {s : Site σ π} {ok ok' : Grant → Site σ π → Prop}
    {failed failed' : Prop} (h : p.Ends g s ok failed) (hok : ∀ g' s', ok g' s' → ok' g' s')
    (hfailed : failed → failed') : p.Ends g s ok' failed' := by
  unfold Ends at h ⊢
  split
  · rename_i g' s' heq
    rw [heq] at h
    exact hok g' s' h
  · rename_i heq
    rw [heq] at h
    exact hfailed h

theorem Ends.of_run_eq {p p' : Preparation σ} {g g' : Grant} {s s' : Site σ π}
    {ok : Grant → Site σ π → Prop} {failed : Prop} (heq : p.run g s = p'.run g' s')
    (h : p'.Ends g' s' ok failed) : p.Ends g s ok failed := by
  unfold Ends at h ⊢
  rw [heq]
  exact h

/-- A kernel that has its persistent data asks the arena for nothing more. -/
theorem Makes.ends_of_persistent {p : Preparation σ} {r : Requests} (h : p.Makes r) {g : Grant}
    (hdata : g.userData.isSome) (s : Site σ π) :
    p.Ends g s (fun g' s' => s'.arena = s.arena ∧ r.need? g.need = some g'.need ∧
      g'.userData = g.userData) (r.need? g.need = none) := by
  induction h generalizing g s with
  | done => exact ⟨rfl, rfl, rfl⟩
  | fail e => exact rfl
  | outside _ ih => exact ih _ hdata { s with outside := _ }
  | scratch _ hrefused ihGranted _ =>
    unfold Ends run
    rw [Requests.need?]
    by_cases hfull : g.scratch.length = maxScratch
    · rw [if_pos hfull, if_pos (show g.need.scratch.length = maxScratch from hfull)]
      exact Ends.of_error ((hrefused _).run_fail g s) rfl
    · rw [if_neg hfull, if_neg (show ¬ g.need.scratch.length = maxScratch from hfull)]
      exact ihGranted _ (g := { g with scratch := g.scratch ++ [_] }) hdata s
  | persistent _ hrefused _ _ =>
    have hneed : g.need.persistent.isSome := by rwa [Grant.need, Option.isSome_map]
    unfold Ends run
    rw [if_pos hdata, Requests.need?, if_pos hneed]
    exact Ends.of_error ((hrefused _).run_fail g s) rfl

theorem run_persistent_refused {size : Nat} {fill : Bytes → Bytes} {granted : Bytes → Preparation σ}
    {refused : KernelError → Preparation σ} {g : Grant} {s s' : Site σ π} {e : MemoryError}
    (hdata : g.userData = none) (h : s.allocate .tail size .opData = (.error e, s')) :
    (persistent size fill granted refused).run g s = (refused (.memory e)).run g s' := by
  rw [run, hdata, h]
  rfl

theorem run_persistent_granted {size offset : Nat} {fill : Bytes → Bytes}
    {granted : Bytes → Preparation σ} {refused : KernelError → Preparation σ} {g : Grant}
    {s s' : Site σ π} {before : Bytes} (hdata : g.userData = none)
    (h : s.allocate .tail size .opData = (.ok offset, s'))
    (hbefore : s'.store.memory.read? offset size = some before) :
    (persistent size fill granted refused).run g s =
      (granted before).run ⟨g.scratch, some ⟨offset, size⟩⟩
        (s'.mapMemory fun m => m.write offset ((fill before).take size)) := by
  rw [run, hdata, h]
  simp only [Option.isSome_none, Bool.false_eq_true, if_false, hbefore]

theorem read_block {s s' : Site σ π} {size : Nat} (hs : s.arena.Steady)
    (hmet : (Demand.block size).Met s.arena) (hmoved : (Demand.block size).Moved s.arena s'.arena) :
    ∃ before, s'.store.memory.read? s'.arena.tail size = some before := by
  have hsize : size ≤ alignUp size arenaAlignment := le_alignUp (by decide) _
  have htail := hs.kept.tail_le
  have hcapacity : s'.store.memory.size = s.arena.capacity := hmoved.capacity_eq
  obtain ⟨-, -, hroom⟩ := hmet
  simp only [Demand.block] at hroom
  refine ⟨_, if_pos ?_⟩
  rw [hcapacity, hmoved.tail_eq]
  simp only [Demand.block]
  omega

/-- A kernel that was not granted persistent data before takes a block for them. -/
theorem ends_persistent {size : Nat} {fill : Bytes → Bytes} {granted : Bytes → Preparation σ}
    {refused : KernelError → Preparation σ} {rest : Requests}
    (hgranted : ∀ before, (granted before).Makes rest)
    (hrefused : ∀ e, (refused e).Makes (.fail e)) {g : Grant} (hdata : g.userData = none)
    {s : Site σ π} (hs : s.arena.Steady) (hrewound : s.arena.head = 0) :
    (persistent size fill granted refused).Ends g s
      (fun g' s' => ∃ n, rest.need? ⟨g.scratch, some size⟩ = some n ∧ n.blocks.Met s.arena ∧
        n.blocks.Moved s.arena s'.arena ∧ g' = n.grant s'.arena.tail)
      (∀ n, rest.need? ⟨g.scratch, some size⟩ = some n → ¬ n.blocks.Met s.arena) := by
  have hblocks : ∀ n, rest.need? ⟨g.scratch, some size⟩ = some n → n.blocks = .block size := by
    intro n hn
    rw [Need.blocks, Requests.persistent_of_need? hn rfl]
  cases hallocate : s.allocate .tail size .opData with
  | mk answer s₁ =>
    cases answer with
    | error e =>
      refine .of_run_eq (run_persistent_refused hdata hallocate)
        (.of_error ((hrefused _).run_fail g s₁) fun n hn => ?_)
      rw [hblocks n hn]
      exact Site.allocate_tail_refused hs hallocate
    | ok offset =>
      obtain ⟨hmet, hmoved, rfl⟩ := Site.allocate_tail_exact hs hrewound hallocate
      obtain ⟨before, hbefore⟩ := read_block hs hmet hmoved
      refine .of_run_eq (run_persistent_granted hdata hallocate hbefore)
        (((hgranted before).ends_of_persistent rfl _).mono ?_ fun hnone n hn => ?_)
      · rintro ⟨scratch, data⟩ s' ⟨harena, hn, rfl⟩
        have hb := hblocks _ hn
        rw [Site.arena_mapMemory] at harena
        refine ⟨_, hn, by rwa [hb], ?_, by rw [harena]; rfl⟩
        rw [hb, harena]
        exact hmoved.withMemory (Memory.size_write ..)
      · cases hnone.symm.trans hn

/-- A kernel that was not granted persistent data before takes the blocks that it needs. -/
theorem Makes.ends {p : Preparation σ} {r : Requests} (h : p.Makes r) {g : Grant}
    (hdata : g.userData = none) {s : Site σ π} (hs : s.arena.Steady) (hrewound : s.arena.head = 0) :
    p.Ends g s (fun g' s' => ∃ n, r.need? g.need = some n ∧ n.blocks.Met s.arena ∧
        n.blocks.Moved s.arena s'.arena ∧ g' = n.grant s'.arena.tail)
      (∀ n, r.need? g.need = some n → ¬ n.blocks.Met s.arena) := by
  have hneed : g.need = ⟨g.scratch, none⟩ := by rw [Grant.need, hdata, Option.map_none]
  induction h generalizing g s with
  | done =>
    refine ⟨_, rfl, ?_, ?_, ?_⟩
    · rw [hneed]
      exact Demand.met_none hs
    · rw [hneed]
      exact Demand.moved_none hrewound rfl rfl
    · rw [hneed, Need.grant, Option.map_none, ← hdata]
  | fail e =>
    intro n hn
    cases hn
  | outside _ ih => exact ih _ hdata (s := { s with outside := _ }) hs hrewound hneed
  | scratch _ hrefused ihGranted _ =>
    -- Scratch is only noted here, so the arena has no part in the answer.
    unfold Ends run
    rw [Requests.need?]
    by_cases hfull : g.scratch.length = maxScratch
    · rw [if_pos hfull, if_pos (show g.need.scratch.length = maxScratch from hfull)]
      apply Ends.of_error ((hrefused _).run_fail g s)
      intro n hn
      cases hn
    · rw [if_neg hfull, if_neg (show ¬ g.need.scratch.length = maxScratch from hfull)]
      refine ihGranted _ (g := { g with scratch := g.scratch ++ [_] }) hdata hs hrewound ?_
      rw [Grant.need, hdata, Option.map_none]
  | persistent hgranted hrefused _ _ =>
    rw [Requests.need?, hneed, if_neg (by simp)]
    exact ends_persistent hgranted hrefused hdata hs hrewound

end Preparation

/-! ## All kernels -/

namespace Requests

/-- What preparing a kernel that makes these requests takes. -/
def demand (r : Requests) : Demand :=
  match r.need? {} with
  | none => .never
  | some n => n.demand

/-- The sizes of the scratch blocks that the kernel is granted. -/
def scratchSizes (r : Requests) : List Nat :=
  match r.need? {} with
  | none => []
  | some n => n.scratch

theorem head_demand (r : Requests) : r.demand.head = 0 := by
  unfold demand
  split
  · rfl
  · exact Need.head_demand _

theorem demand_moves (r : Requests) : r.demand.Moves := by
  unfold demand
  split
  · exact Demand.never_moves
  · exact Need.demand_moves _

/-- The lifetimes of the scratch blocks of operators whose kernels make these requests; `index` counts
operators. -/
def lifetimes (index : Nat) (rs : List Requests) : List Lifetime :=
  Pass.grantLifetimes index (rs.map fun r => { scratch := r.scratchSizes })

end Requests

namespace Pass

variable {capacity : Nat}

theorem prepare_exact {g : Graph} {op : Operator} {k : Kernel σ} {r : Requests}
    (h : (k.prepare (.of g op)).Makes r) {s : Site σ π} (hs : s.arena.Steady)
    (hrewound : s.arena.head = 0) :
    (prepare g op k : Pass σ π AllocationError Grant).Runs s
      (fun grant s' => ∃ n, r.need? {} = some n ∧ n.blocks.Met s.arena ∧
        n.blocks.Moved s.arena s'.arena ∧ grant = n.grant s'.arena.tail)
      (fun _ _ => ∀ n, r.need? {} = some n → ¬ n.blocks.Met s.arena) := by
  have hends := h.ends (g := {}) rfl hs hrewound
  unfold Preparation.Ends at hends
  unfold Runs exec prepare
  simp only [ExceptT.run_mk, StateT.run]
  cases hrun : (k.prepare (.of g op)).run {} s with
  | mk answer s' =>
    rw [hrun] at hends
    cases answer with
    | ok grant => exact hends
    | error e => exact hends

/-- Prepares a kernel and numbers its persistent data. -/
def prepareRow (g : Graph) (op : Operator) (k : Kernel σ) :
    Pass σ π AllocationError (Grant × Span) := do
  let grant ← prepare g op k
  let span ← liftExcept (userSpan grant.userData)
  pure (grant, span)

theorem prepareRow_takes {g : Graph} {op : Operator} {k : Kernel σ} {r : Requests}
    (h : (k.prepare (.of g op)).Makes r) :
    (prepareRow g op k : Pass σ π AllocationError _).Takes capacity r.demand
      fun answer => answer.1.scratch = r.scratchSizes := by
  intro s hs hrewound _
  have hdemand : ∀ n, r.need? {} = some n → r.demand = n.demand ∧ r.scratchSizes = n.scratch := by
    intro n hn
    rw [Requests.demand, Requests.scratchSizes, hn]
    exact ⟨rfl, rfl⟩
  refine ((prepare_exact h hs hrewound).mono (fun _ _ h => h) ?_).bind
    fun grant s₁ ⟨n, hn, hmet, hmoved, hgrant⟩ => ?_
  · intro e s₁ hfailed hmet
    cases hn : r.need? {} with
    | none =>
      rw [Requests.demand, hn] at hmet
      exact hmet.1
    | some n =>
      rw [(hdemand n hn).1] at hmet
      exact hfailed n hn (n.met_blocks hmet)
  · obtain ⟨hd, hscratch⟩ := hdemand n hn
    rw [hd]
    subst hgrant
    refine .lift_bind (fun span hspan => .of_pure ⟨?_, n.moved_demand hmoved, hscratch.symm⟩) fun e he => ?_
    · exact (n.met_demand_iff hmoved).mpr ⟨hmet, (n.userSpan_ok_iff _).mp ⟨span, hspan⟩⟩
    · intro hall
      obtain ⟨span, hspan⟩ := (n.userSpan_ok_iff _).mpr ((n.met_demand_iff hmoved).mp hall).2
      cases he.symm.trans hspan

theorem prepareAll_cons (g : Graph) (op : Operator) (k : Kernel σ) (rest : List (Operator × Kernel σ))
    (index first : Nat) :
    (prepareAll g ((op, k) :: rest) index first : Pass σ π AllocationError _) = (do
      let (grant, span) ← prepareRow g op k
      let (rows, lifetimes) ← prepareAll g rest (index + 1) (first + grant.scratch.length)
      pure (⟨span, UInt32.ofNat first, UInt32.ofNat grant.scratch.length⟩ :: rows,
        grant.scratch.zipIdx.map (fun (size, k) => Lifetime.scratch index k size) ++ lifetimes)) := by
  rw [prepareAll, prepareRow]
  simp only [bind_assoc, pure_bind]

theorem prepareAll_takes {g : Graph} {pairs : List (Operator × Kernel σ)} {rs : List Requests}
    (h : List.Forall₂ (fun p r => (p.2.prepare (.of g p.1)).Makes r) pairs rs) (index first : Nat) :
    (prepareAll g pairs index first : Pass σ π AllocationError _).Takes capacity
      (.all (rs.map Requests.demand)) fun answer =>
        answer.1.length = pairs.length ∧ answer.2 = Requests.lifetimes index rs := by
  induction h generalizing index first with
  | nil => exact .of_pure ⟨rfl, rfl⟩
  | @cons pair r pairs rs hpair _ ih =>
    obtain ⟨op, k⟩ := pair
    rw [prepareAll_cons, List.map_cons, Demand.all, List.foldr_cons]
    refine (prepareRow_takes hpair).bind r.head_demand fun answer hscratch => ?_
    refine (ih (index + 1) (first + answer.1.scratch.length)).bind_pure ?_
    rintro ⟨rows, lifetimes⟩ ⟨hlength, rfl⟩
    refine ⟨by rw [List.length_cons, List.length_cons, hlength], ?_⟩
    rw [hscratch]
    rfl

end Pass

end TensorArena
