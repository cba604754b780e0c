import TensorArena.Proofs.Tenancy.Invariant

/-!
# Allocated interpreters are ready

In every run of a tenancy an allocated interpreter can bind each of its operators, and its
invocations never fail for the state of the tables: a kernel may fail, or somebody may hold the store.

The strategy must keep its contract, and 32-bit words must number the rows of the scratch table, which
nothing checks. More than 2 ^ 32 rows take an arena of more than 32 GiB, a graph of more than 2 ^ 30
operators and tensors without a single byte, so any one of these facts makes them few enough:
`Graph.NumbersScratch`.
-/

namespace TensorArena

variable {σ π : Type}

/-- An operator can be bound: every operand that needs one has a placed span, there are places for
all operands and scratch blocks, and the claimed ranges are in bounds and apart. -/
structure Operator.Ready (op : Operator) (g : Graph) (tables : Tables) (k : Nat)
    (context : Option Int) (m : Memory) (row : OpRow) (b : Sources) : Prop where
  row_eq : m.readRow OpRow.layout tables.operators k = .ok row
  sources_eq : m.sources g op tables row = .ok b
  placed : ∀ id ∈ op.operandIds, ∃ t, g.tensors[id]? = some t ∧ (t.data = none →
    ∃ span, m.readRow Span.layout tables.tensors id = .ok span ∧ span.IsPlaced)
  inputs_le : op.inputs.length ≤ maxOperands
  outputs_le : op.outputs.length ≤ maxOperands
  scratch_le : b.scratch.length ≤ maxScratch
  claims_le : (b.claims op row).length ≤ maxOperands + maxOperands + maxScratch + 1
  in_bounds : ∀ r ∈ b.claims op row, r.stop ≤ m.size
  apart : (b.claims op row).Pairwise ByteRange.Apart
  bind_eq : m.bind g op tables row context = .ok (m.operands op row context b)

/-- All operators can be bound, and running them can fail only because the store is held or because a
kernel fails. -/
structure Interpreter.Ready (i : Interpreter σ π) (tables : Tables) (s : Site σ π) : Prop where
  operators : ∀ (k : Nat) (op : Operator), i.graph.operators[k]? = some op →
    ∃ row b, op.Ready i.graph.toGraph tables k i.context s.memory row b
  invoke : ∀ e, (i.invoke s).1 = .error e →
    e = .busy ∨ ∃ index name cause, e = .kernel index name cause

/-- The scratch blocks that the first `n` operators have, all together, by the operator table. -/
def Memory.scratchTotal (m : Memory) (tables : Tables) (n : Nat) : Nat :=
  total ((List.range n).map fun k =>
    match m.readRow OpRow.layout tables.operators k with
    | .ok row => row.scratchCount.toNat
    | .error _ => 0)

/-- 32-bit words number the rows of every scratch table: it has room for no more of them, or the graph
has too few operators to ask for more, or some tensor lies behind the table within the reach of a
span. -/
def Graph.NumbersScratch (g : Graph) (m : Memory) : Prop :=
  m.size ≤ 2 ^ 35 ∨ g.operators.length ≤ 2 ^ 30 ∨ ∃ id t, g.Stored id t ∧ 0 < t.size

namespace Allotment

/-- The operator table lists all scratch blocks. -/
theorem Fits.scratchTotal_eq {a : Allotment} {g : Graph} {tables : Tables} (h : a.Fits g tables)
    {m : Memory} (hs : a.Settled tables m) :
    m.scratchTotal tables g.operators.length = a.scratch.length := by
  have hcounts : (List.range a.grants.length).map (fun k =>
      match m.readRow OpRow.layout tables.operators k with
      | .ok row => row.scratchCount.toNat
      | .error _ => 0) = a.grants.map fun grant => grant.scratch.length := by
    refine List.ext_getElem (by simp) fun k hk hk' => ?_
    have hlt : k < a.grants.length := by simpa using hk
    have hg := List.getElem?_eq_getElem hlt
    rw [List.getElem_map, List.getElem_range, List.getElem_map, hs.row hg]
    exact toNat_scratchCount (h.scratch_le hg)
  rw [Memory.scratchTotal, ← h.grants_length, hcounts, h.scratch.length_eq, lifetimes,
    Pass.length_grantLifetimes]

/-- Where 32-bit words number all scratch rows, the allotment has no more. -/
theorem Fits.scratch_numbered {a : Allotment} {g : Graph} {tables : Tables} (h : a.Fits g tables)
    {m : Memory} (hstart : a.stages.start ≤ m.size) (hnumber : g.NumbersScratch m) :
    a.scratch.length ≤ 2 ^ 32 := by
  refine Nat.le_of_not_lt fun hwrap => ?_
  rcases hnumber with hsize | hoperators | ⟨id, t, hs, hpos⟩
  · obtain ⟨h₁, h₂, h₃, h₄, h₅, -⟩ := h.falling
    have htable := h.lt_activations hwrap
    omega
  · have hlen := h.length_scratch_le
    have hfour : maxScratch = 4 := rfl
    rw [hfour] at hlen
    omega
  · rw [h.size_eq_zero hwrap hs] at hpos
    cases hpos

theorem ready {a : Allotment} {g : Graph} {tables : Tables} {m : Memory} (hc : g.Checked)
    (h : a.Fits g tables) (hs : a.Settled tables m) (hb : a.Bindable g m) {k : Nat} {op : Operator}
    (hop : g.operators[k]? = some op) (context : Option Int) :
    ∃ row b, op.Ready g tables k context m row b := by
  obtain ⟨grant, hg⟩ := h.exists_grant hop
  have hmem := List.mem_of_getElem? hop
  refine ⟨a.rowOf k grant, a.sources g op (a.rowOf k grant),
    { row_eq := hs.row hg
      sources_eq := sources_eq hc h hs hop hg
      placed := fun id hid => ?_
      inputs_le := hb.inputs op hmem
      outputs_le := hb.outputs op hmem
      scratch_le := ?_
      claims_le := length_claims_le h hg (hb.inputs op hmem) (hb.outputs op hmem)
      in_bounds := fun r hr => Nat.le_trans (claims_stop_le h hop hg hr) hb.start_le
      apart := claims_apart hc h hop hg hb.number
      bind_eq := bind_eq hc h hs hb.start_le hop hg (hb.inputs op hmem) (hb.outputs op hmem)
        hb.number context }⟩
  · obtain ⟨t, ht⟩ := hc.exists_operand hmem hid
    refine ⟨t, ht, fun hd => ?_⟩
    obtain ⟨span, hspan, hplaced, -⟩ := h.stored (Graph.stored_of_operand hop hid ht hd)
    exact ⟨span, hs.tensors.readRow Span.layout_lawful hspan, hplaced⟩
  · rw [sources, List.length_map, h.length_pieces hg]
    exact h.scratch_le hg

end Allotment

namespace Tenancy

variable {t : Tenancy σ π}

theorem Tenant.ready {n : Nat} {i : Interpreter σ π} (h : t.Tenant n i) {tables : Tables}
    (hstate : i.state = .allocated tables)
    (hcount : t.site.memory.scratchTotal tables i.graph.operators.length ≤ 2 ^ 32) :
    i.Ready tables t.site := by
  obtain ⟨a, hl, -⟩ := h.lodged tables (by rw [hstate]; rfl)
  have hnumber : a.scratch.length ≤ 2 ^ 32 := by
    rw [← hl.fits.scratchTotal_eq hl.settled]
    exact hcount
  have hb : a.Bindable i.graph.toGraph t.site.memory :=
    ⟨hnumber, hl.start_le, h.made.inputs, h.made.outputs⟩
  refine ⟨fun k op hop => Allotment.ready i.graph.rules hl.fits hl.settled hb hop i.context, ?_⟩
  intro e he
  obtain ⟨-, -, honly⟩ := Interpreter.runOnce_wrote hl
  unfold Interpreter.invoke at he
  rw [hstate] at he
  exact honly hb e he

/-- What `Graph.NumbersScratch` says of an arena or of a graph is enough. -/
theorem Tenant.scratchTotal_le {n : Nat} {i : Interpreter σ π} (h : t.Tenant n i) {tables : Tables}
    (hstate : i.state = .allocated tables) (hnumber : i.graph.NumbersScratch t.site.memory) :
    t.site.memory.scratchTotal tables i.graph.operators.length ≤ 2 ^ 32 := by
  obtain ⟨a, hl, -⟩ := h.lodged tables (by rw [hstate]; rfl)
  rw [hl.fits.scratchTotal_eq hl.settled]
  exact hl.fits.scratch_numbered hl.start_le hnumber

/-- No action changes the size of the arena. -/
theorem Sound.size_run (ht : t.Sound) (actions : List (Action σ π)) :
    (t.run actions).site.memory.size = t.site.memory.size := by
  induction actions generalizing t with
  | nil => rfl
  | cons action rest ih => exact (ih (ht.step action)).trans (ht.next_act action).acted.size_eq

/-- Whatever tenants and the holder did before, an interpreter that is allocated is ready, as long as its
operators have no more than 2 ^ 32 scratch blocks in all. -/
theorem run_keeps_allocated_ready {s : Site σ π} (hs : s.Sound) (actions : List (Action σ π))
    {n : Nat} {i : Interpreter σ π} (hi : ((start s).run actions).tenant? n = some i)
    {tables : Tables} (hstate : i.state = .allocated tables)
    (hcount : ((start s).run actions).site.memory.scratchTotal tables i.graph.operators.length ≤ 2 ^ 32) :
    i.Ready tables ((start s).run actions).site :=
  (((start_sound hs).run actions).tenants n i hi).ready hstate hcount

/-- The second tenant of the small store, whose three operators have scratch blocks. -/
theorem run_keeps_allocated_ready_of_sample :
    ∃ i, (sampleStart.run (sampleActions .firstFit)).tenant? 1 = some i ∧
      i.state = .allocated ⟨288, 224, 112⟩ ∧
      i.Ready ⟨288, 224, 112⟩ (sampleStart.run (sampleActions .firstFit)).site := by
  obtain ⟨-, i, -, -, hi, hi'⟩ := sample_tenants
  have hsound : Site.Sound (Site.ofBuffer 7 (.replicate 600 255) () () : Site Unit Unit) :=
    Site.ofBuffer_sound ..
  have ht := start_sound hsound
  have hsize : (sampleStart.run (sampleActions .firstFit)).site.memory.size ≤ 2 ^ 35 := by
    rw [sampleStart, ht.size_run]
    decide
  exact ⟨i, hi, hi', run_keeps_allocated_ready hsound (sampleActions .firstFit) hi hi'
    (((ht.run (sampleActions .firstFit)).tenants 1 i hi).scratchTotal_le hi' (.inl hsize))⟩

end Tenancy

end TensorArena
