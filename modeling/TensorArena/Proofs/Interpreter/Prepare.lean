import TensorArena.Interpreter.Commit
import TensorArena.Proofs.Interpreter.Since
import TensorArena.Proofs.Interpreter.Tables

/-!
# Preparing kernels

A kernel reaches the arena only through its requests, so whatever it asks for, its persistent data
are a block taken on the way and it lists at most four scratch blocks. Over all kernels the blocks of
persistent data are apart, the operator rows follow from what was granted, and so does the list of
scratch blocks, each alive only while its operator runs.
-/

namespace TensorArena

variable {σ π : Type}

/-! ## One kernel -/

/-- What is listed in the grant was granted in the stretch. -/
structure Grant.Within (g : Grant) (k : Stretch) : Prop where
  scratch_le : g.scratch.length ≤ maxScratch
  userData : ∀ r, g.userData = some r → k.Took r

theorem Grant.Within.mono {k k' : Stretch} {g : Grant} (h : g.Within k) (hk : k.Within k') :
    g.Within k' :=
  ⟨h.scratch_le, fun r hr => (h.userData r hr).mono hk⟩

theorem Preparation.run_since (p : Preparation σ) {g : Grant} {s₀ s : Site σ π} (hs : s₀.Since s)
    (hg : g.Within (s₀.stretch s)) :
    s₀.Since (p.run g s).2 ∧
      ∀ g', (p.run g s).1 = .ok g' → g'.Within (s₀.stretch (p.run g s).2) := by
  induction p generalizing g s with
  | done =>
    refine ⟨hs, fun g' h => ?_⟩
    cases h
    exact hg
  | fail e => exact ⟨hs, nofun⟩
  | scratch size granted refused ihGranted ihRefused =>
    unfold Preparation.run
    split
    · exact ihRefused _ hs hg
    · rename_i hroom
      refine ihGranted _ hs ⟨?_, hg.userData⟩
      have := hg.scratch_le
      simp only [List.length_append, List.length_singleton]
      omega
  | outside change next ih =>
    -- Nothing in the arena changes.
    unfold Preparation.run
    have hstep : s.Since { s with outside := change s.outside } := .of_eq hs.sound rfl rfl rfl
    exact ih _ (hs.trans hstep) (hg.mono (hs.stretch_later hstep))
  | persistent size fill granted refused ihGranted ihRefused =>
    unfold Preparation.run
    split
    · exact ihRefused _ hs hg
    · split
      · rename_i e s' hrefused
        have hstep := Site.request_error_since hrefused hs.sound
        exact ihRefused _ (hs.trans hstep) (hg.mono (hs.stretch_later hstep))
      · rename_i offset s' hgranted
        obtain ⟨hstep, htook, -⟩ := Site.allocate_tail_ok hgranted hs.sound
        have hnext := hs.trans hstep
        have hgrant : (Grant.mk g.scratch (some ⟨offset, size⟩)).Within (s₀.stretch s') := by
          refine ⟨hg.scratch_le, fun r hr => ?_⟩
          cases hr
          exact htook.mono (hs.stretch_earlier hstep)
        dsimp only
        split
        · exact ihRefused _ hnext hgrant
        · rename_i before hbefore
          -- The kernel fills no more than it was granted.
          have hfits : ((fill before).take size).length ≤ size := List.length_take_le ..
          refine ihGranted _ (hs.trans (hstep.write_took htook hfits)) ?_
          rw [Site.stretch_mapMemory]
          exact hgrant

namespace Pass

/-- The span of a grant's persistent data. -/
def grantSpan (g : Grant) : Span :=
  match g.userData with
  | none => .unplaced
  | some r => ⟨UInt32.ofNat r.offset, UInt32.ofNat r.length⟩

/-- The rows of operators that were granted so much; `first` counts the scratch blocks before. -/
def grantRows : (first : Nat) → List Grant → List OpRow
  | _, [] => []
  | first, g :: rest =>
    ⟨grantSpan g, UInt32.ofNat first, UInt32.ofNat g.scratch.length⟩ ::
      grantRows (first + g.scratch.length) rest

/-- The lifetimes of their scratch blocks; `index` counts operators. -/
def grantLifetimes : (index : Nat) → List Grant → List Lifetime
  | _, [] => []
  | index, g :: rest =>
    g.scratch.zipIdx.map (fun (size, k) => Lifetime.scratch index k size) ++
      grantLifetimes (index + 1) rest

/-- What every kernel was granted and how it left its persistent data, when kernels are prepared in
order. -/
def prepared (g : Graph) : List (Operator × Kernel σ) → Site σ π → List (Grant × Bytes)
  | [], _ => []
  | (op, k) :: rest, s =>
    match (k.prepare (.of g op)).run {} s with
    | (.ok grant, s') =>
      (grant, (grant.userData.map s'.memory.piece).getD []) :: prepared g rest s'
    | (.error _, _) => []

theorem prepare_runs {s : Site σ π} (hs : s.Sound) (g : Graph) (op : Operator) (k : Kernel σ) :
    (prepare g op k : Pass σ π AllocationError Grant).Runs s
      (fun grant s' => s.Since s' ∧ grant.Within (s.stretch s') ∧
        (k.prepare (.of g op)).run {} s = (.ok grant, s'))
      (fun _ s' => s.Since s') := by
  obtain ⟨hsince, hok⟩ := (k.prepare (.of g op)).run_since (.refl hs)
    (g := {}) ⟨Nat.zero_le _, nofun⟩
  unfold Runs exec prepare
  simp only [ExceptT.run_mk, StateT.run]
  cases h : (k.prepare (.of g op)).run {} s with
  | mk answer s' =>
    rw [h] at hsince hok
    cases answer with
    | ok grant => exact ⟨hsince, hok grant rfl, rfl⟩
    | error e => exact hsince

/-! ## All kernels -/

/-- What was granted to kernels one after the other in a stretch. -/
structure Granted (k : Stretch) (grants : List Grant) : Prop where
  within : ∀ grant ∈ grants, grant.Within k
  reach : ∀ grant ∈ grants, ∀ r, grant.userData = some r → r.stop ≤ Word.max32
  apart : grants.Pairwise fun a b => ∀ r r', a.userData = some r → b.userData = some r' →
    r.Apart r'

theorem Granted.mono {k k' : Stretch} {grants : List Grant} (h : Granted k grants)
    (hk : k.Within k') : Granted k' grants :=
  ⟨fun g hg => (h.within g hg).mono hk, h.reach, h.apart⟩

theorem Granted.cons {k : Stretch} {mid : Nat} {grant : Grant} {grants : List Grant}
    (h : grant.Within ⟨k.blocks, mid, k.high⟩) (hs : Granted ⟨k.blocks, k.low, mid⟩ grants)
    (hreach : ∀ r, grant.userData = some r → r.stop ≤ Word.max32) (hlow : k.low ≤ mid)
    (hhigh : mid ≤ k.high) : Granted k (grant :: grants) where
  within g hg := by
    rcases List.mem_cons.mp hg with rfl | hg
    · exact h.mono ⟨List.Subset.refl _, hlow, Nat.le_refl _⟩
    · exact (hs.within g hg).mono ⟨List.Subset.refl _, Nat.le_refl _, hhigh⟩
  reach g hg := by
    rcases List.mem_cons.mp hg with rfl | hg
    · exact hreach
    · exact hs.reach g hg
  apart := by
    refine List.pairwise_cons.mpr ⟨fun g hg r r' hr hr' => ?_, hs.apart⟩
    exact (h.userData r hr).apart ((hs.within g hg).userData r' hr') (Nat.le_refl _)

theorem userSpan_ok {grant : Grant} {span : Span} (h : userSpan grant.userData = .ok span) :
    span = grantSpan grant ∧ ∀ r, grant.userData = some r → r.stop ≤ Word.max32 := by
  unfold grantSpan
  cases hdata : grant.userData with
  | none =>
    rw [hdata] at h
    cases h
    exact ⟨rfl, nofun⟩
  | some r =>
    rw [hdata] at h
    obtain ⟨heq, -, hle⟩ := Span.make_ok h
    refine ⟨heq, fun r' hr' => ?_⟩
    cases hr'
    exact hle

/-- Preparing all kernels: the rows and lifetimes are those of the grants, and the persistent data
are in the end as each kernel left them. -/
theorem prepareAll_runs {s : Site σ π} (hs : s.Sound) (g : Graph)
    (pairs : List (Operator × Kernel σ)) (index first : Nat) :
    (prepareAll g pairs index first : Pass σ π AllocationError _).Runs s
      (fun answer s' => s.Since s' ∧ (prepared g pairs s).length = pairs.length ∧
        Granted (s.stretch s') ((prepared g pairs s).map (·.1)) ∧
        (∀ p ∈ prepared g pairs s, (p.1.userData.map s'.memory.piece).getD [] = p.2) ∧
        answer = (grantRows first ((prepared g pairs s).map (·.1)),
          grantLifetimes index ((prepared g pairs s).map (·.1))))
      (fun _ s' => s.Since s') := by
  induction pairs generalizing s index first with
  | nil => exact .of_pure ⟨.refl hs, rfl, ⟨nofun, nofun, .nil⟩, nofun, rfl⟩
  | cons pair rest ih =>
    obtain ⟨op, k⟩ := pair
    refine (prepare_runs hs g op k).bind fun grant s₁ ⟨h₁, hgrant, hrun⟩ => ?_
    have hprepared : prepared g ((op, k) :: rest) s =
        (grant, (grant.userData.map s₁.memory.piece).getD []) :: prepared g rest s₁ := by
      rw [prepared, hrun]
    refine .lift_bind (fun span hspan => ?_) fun _ _ => h₁
    obtain ⟨rfl, hreach⟩ := userSpan_ok hspan
    refine ((ih h₁.sound (index + 1) (first + grant.scratch.length)).after h₁).bind
      fun answer s₂ ⟨h₂, hlength, hgranted, hkept, hanswer⟩ => ?_
    subst hanswer
    refine .of_pure ⟨h₁.trans h₂, ?_, ?_, ?_, ?_⟩
    · rw [hprepared, List.length_cons, List.length_cons, hlength]
    · rw [hprepared]
      exact .cons (hgrant.mono ⟨h₁.fresh_later h₂, Nat.le_refl _, Nat.le_refl _⟩)
        (hgranted.mono ⟨h₁.fresh_earlier h₂, Nat.le_refl _, Nat.le_refl _⟩) hreach
        h₂.later.tail_le h₁.later.tail_le
    · rw [hprepared]
      intro p hp
      rcases List.mem_cons.mp hp with rfl | hp
      · -- Later kernels leave the data of the first one alone.
        dsimp only
        cases hdata : grant.userData with
        | none => rfl
        | some r => exact (h₂.agreeOn_took (hgrant.userData r hdata)).piece_eq
      · exact hkept p hp
    · rw [hprepared]
      rfl

end Pass

end TensorArena
