import TensorArena.Proofs.Interpreter.Confined
import TensorArena.Proofs.Interpreter.Terminal
import TensorArena.Proofs.Tenancy.Invariant

/-!
# Tenants whose kernels fail

Whatever the tenants and the holder of a store did before, an invocation whose kernels fail stops at the
first of them. What the kernels before it wrote stays, and so does what it wrote itself; that lies in
blocks of its tenant, and none of it in a tensor of another operator that is still needed. The tenant
can read all its tensors then, and write none.
-/

namespace TensorArena

variable {σ π : Type}

namespace Tenancy

variable {t : Tenancy σ π}

theorem Tenant.stops_at_failure {n : Nat} {i : Interpreter σ π} (h : t.Tenant n i) {tables : Tables}
    (hstate : i.state = .allocated tables) (hhold : t.site.hold = .free)
    (f : i.FirstFailure tables t.site) :
    ∃ s', i.invoke t.site = (.error f.error, { i with state := .failed (some tables) }, s') ∧
      f.Stopped s' ∧ f.Confined (t.Owns (.tenant n)) ∧
      f.Inspectable { i with state := .failed (some tables) } s' := by
  obtain ⟨a, hl, hblocks⟩ := h.lodged tables (by rw [hstate]; rfl)
  obtain ⟨s', hinvoke, hstopped⟩ := f.stopped hstate hhold
  refine ⟨s', hinvoke, hstopped, f.confined hl hhold ?_, f.inspectable hl hhold hstate hstopped hinvoke⟩
  rintro x ⟨-, b, hb, hx⟩
  exact ⟨b, hblocks b hb, hx⟩

/-- An invocation of an allocated interpreter stops at the first kernel that fails. It leaves the arena
as the operators before left it, but for what this kernel wrote into its own slices; these lie in blocks
of the tenant. Every tensor can still be read, and none can be written. -/
theorem run_stops_at_failure {s : Site σ π} (hs : s.Sound) (actions : List (Action σ π)) {n : Nat}
    {i : Interpreter σ π} (hi : ((start s).run actions).tenant? n = some i) {tables : Tables}
    (hstate : i.state = .allocated tables) (hhold : ((start s).run actions).site.hold = .free)
    (f : i.FirstFailure tables ((start s).run actions).site) :
    ∃ s', i.invoke ((start s).run actions).site =
        (.error (.kernel f.index f.operator.name f.cause),
          { i with state := .failed (some tables) }, s') ∧
      f.Stopped s' ∧ f.Confined (((start s).run actions).Owns (.tenant n)) ∧
      f.Inspectable { i with state := .failed (some tables) } s' := by
  have ht : ((start s).run actions).Sound := (start_sound hs).run actions
  exact (ht.tenants n i hi).stops_at_failure hstate hhold f

/-- A kernel that writes its output and then reports an error. -/
def halfway : Kernel Unit where
  invoke := do
    KernelM.change fun o => o.setOutput 0 ⟨0, [7, 0, 0, 0]⟩
    throw (.failed "halfway")

def halfwayStart : Site Unit Unit :=
  .ofBuffer 0 (.replicate 256 0) () ()

/-- Addition fails half-way, and every other operator counts a variable up. -/
def halfwayResolver : Resolver Unit
  | .add => some (.always halfway)
  | _ => some (.always (SampleKernel.accumulate id))

def halfwayActions : List (Action Unit Unit) :=
  [.request .tail 16 16 .allocatorInternal,
    .enter (Interpreter.doubling halfway).graph halfwayResolver,
    .equip 0 ⟨.linear, Strategy.linear_sound⟩ none true, .allocate 0, .rewind]

def halfwayTables : Tables :=
  ⟨208, 176, 0⟩

/-- The second operator fails, and what it wrote before is read from its output. -/
theorem run_stops_at_failure_of_halfway :
    ∃ (i : Interpreter Unit Unit)
      (f : i.FirstFailure halfwayTables ((start halfwayStart).run halfwayActions).site)
      (s' : Site Unit Unit),
      ((start halfwayStart).run halfwayActions).tenant? 0 = some i ∧
      i.state = .allocated halfwayTables ∧ f.index = 1 ∧
      i.invoke ((start halfwayStart).run halfwayActions).site =
        (.error (.kernel 1 "double" (.failed "halfway")),
          { i with state := .failed (some halfwayTables) }, s') ∧
      f.Stopped s' ∧ f.Confined (((start halfwayStart).run halfwayActions).Owns (.tenant 0)) ∧
      f.Inspectable { i with state := .failed (some halfwayTables) } s' ∧
      (Interpreter.tensor { i with state := .failed (some halfwayTables) } s' 2).toOption.map
        (fun h => h.slice.bytes) = some [7, 0, 0, 0] := by
  have htenant : (((start halfwayStart).run halfwayActions).tenant? 0).map (fun i =>
      let after := i.invoke ((start halfwayStart).run halfwayActions).site
      (i.state, after.1,
        (after.2.1.tensor after.2.2 2).toOption.map fun h => h.slice.bytes)) =
        some (.allocated halfwayTables, .error (.kernel 1 "double" (.failed "halfway")),
          some [7, 0, 0, 0]) := by
    decide +kernel
  have hhold : ((start halfwayStart).run halfwayActions).site.hold = .free := by decide +kernel
  obtain ⟨i, hi, heq⟩ := Option.map_eq_some_iff.mp htenant
  simp only [Prod.mk.injEq] at heq
  obtain ⟨hstate, herror, hread⟩ := heq
  obtain ⟨f, hindex, hname, hcause⟩ := Interpreter.exists_firstFailure hstate herror
  have hsound : halfwayStart.Sound := Site.ofBuffer_sound ..
  obtain ⟨s', hinvoke, hstopped, hconfined, hinspectable⟩ :=
    run_stops_at_failure hsound halfwayActions hi hstate hhold f
  rw [hindex, hname, hcause] at hinvoke
  rw [hinvoke] at hread
  exact ⟨i, f, s', hi, hstate, hindex, hinvoke, hstopped, hconfined, hinspectable, hread⟩

end Tenancy

end TensorArena
