import TensorArena.Kernel.Sample
import TensorArena.Proofs.Arena.History
import TensorArena.Proofs.Interpreter.Typed
import TensorArena.Proofs.Tenancy.Ready

/-!
# Typed access of tenants

Over a buffer at any address and of any length, and whatever tenants and the holder of the store did
before, an interpreter that knows its tables reads every tensor at its type: its owner through handles,
and its kernels through views. Alignment has to survive every link from the address of the buffer down
to a row of a table, and what a lodged interpreter finds in its tables has passed all of them.
-/

namespace TensorArena

variable {σ π : Type}

/-- What the owner and the kernels of an interpreter can read when the arena starts at `base`. -/
structure Interpreter.TypedAccess (i : Interpreter σ π) (tables : Tables) (s : Site σ π)
    (base : Nat) : Prop where
  /-- Constants and tensors that have bytes in the arena can be had. -/
  found : ∀ (id : Nat) t, s.hold ≠ .exclusive → i.graph.tensors[id]? = some t →
    (t.data.isSome ∨ i.graph.toGraph.Stored id t) → ∃ slice, i.tensor s id = .ok ⟨t, slice⟩
  /-- Of all others there are no bytes at all. -/
  missing : ∀ (id : Nat) t, s.hold ≠ .exclusive → i.graph.tensors[id]? = some t → t.data = none →
    ¬ i.graph.toGraph.Stored id t → i.tensor s id = .error (.noBuffer id)
  /-- A handle of a tensor that has an element can be read. -/
  handles : ∀ id handle, (i.tensor s id = .ok handle ∨ i.writableTensor s id = .ok handle) →
    0 < handle.tensor.shape.dims.prod → handle.tensor.Readable base handle.slice
  /-- In an invocation every operator whose turn it is can be bound, while scratch rows have
  numbers. -/
  binds : i.graph.toGraph.NumbersScratch s.memory → ∀ (k : Nat) op before,
    i.graph.operators[k]? = some op → (i.runFirst tables k).exec s = (.ok (), before) →
    ∃ o, before.bound i.graph.toGraph op tables k i.context = .ok o
  /-- What is bound is typed, whatever the operators before wrote. -/
  views : ∀ (k : Nat) op before o, i.graph.operators[k]? = some op →
    (i.runFirst tables k).exec s = (.ok (), before) →
    before.bound i.graph.toGraph op tables k i.context = .ok o → o.Typed i.graph.toGraph op base
  /-- Scratch blocks and persistent data that have bytes start at aligned addresses. -/
  blocks : ∀ k < i.graph.operators.length, ∃ row ranges,
    s.memory.readRow OpRow.layout tables.operators k = .ok row ∧
    s.memory.scratchRanges tables row = .ok ranges ∧
    ∀ r ∈ ranges ++ [row.userRange], 0 < r.length → arenaAlignment ∣ base + r.offset

namespace Tenancy

variable {t : Tenancy σ π}

theorem Tenant.typedAccess {n : Nat} {i : Interpreter σ π} (h : t.Tenant n i) {tables : Tables}
    (htables : i.state.tables? = some tables) {base : Nat}
    (hbase : t.site.memory.size ≠ 0 → arenaAlignment ∣ base) :
    i.TypedAccess tables t.site base := by
  obtain ⟨a, hl, -⟩ := h.lodged tables htables
  have hv := Graph.valid_of_check i.graph.checked
  refine ⟨?found, ?missing, ?handles, ?binds, ?views, ?blocks⟩
  case found =>
    intro id t hhold ht hbytes
    exact hl.tensor_found hhold ht hbytes
  case missing =>
    intro id t hhold ht hd hnot
    exact hl.tensor_missing hhold ht hd hnot
  case handles =>
    intro id handle hread hpos
    exact hl.handle_readable hbase hread hpos
  case binds =>
    intro hnumber k op before hop hrun
    have hb := hl.runFirst hrun
    have hsize := (hl.wrote_runFirst hrun).size_eq
    obtain ⟨grant, hg⟩ := hb.fits.exists_grant hop
    have hbindable : a.Bindable i.graph.toGraph before.memory :=
      .congr ⟨hl.fits.scratch_numbered hl.start_le hnumber, hl.start_le, h.made.inputs,
        h.made.outputs⟩ hsize
    exact ⟨_, Allotment.bound_eq i.graph.rules hb.fits hb.settled hbindable hop hg i.context⟩
  case views =>
    intro k op before o hop hrun hbound
    have hb := hl.runFirst hrun
    have hsize := (hl.wrote_runFirst hrun).size_eq
    obtain ⟨grant, hg, rfl, -⟩ :=
      Allotment.operands_of_bound i.graph.rules hb.fits hb.settled hop hbound
    exact Allotment.operands_typed i.graph.rules hv hb.fits hb.start_le (hsize ▸ hbase) hop hg
      i.context
  case blocks =>
    intro k hk
    obtain ⟨grant, hg⟩ := hl.fits.exists_grant (List.getElem?_eq_getElem hk)
    refine ⟨_, _, hl.settled.row hg, Allotment.scratchRanges_eq hl.fits hl.settled hg,
      fun r hr hpos => ?_⟩
    obtain ⟨hdvd, hstop⟩ := hl.fits.workspace_aligned hg hr
    refine Nat.dvd_add (hbase ?_) hdvd
    have := hl.start_le
    simp only [ByteRange.stop] at hstop
    omega

/-- Whatever tenants and the holder did before in a buffer at any address and of any length, all
readings at the types of tensors succeed. -/
theorem run_keeps_access_typed {s : Site σ π} (hs : s.Sound) {address : Nat} {buffer : Memory}
    (hmemory : s.memory = (Arena.ofBuffer address buffer).memory) (actions : List (Action σ π))
    {n : Nat} {i : Interpreter σ π} (hi : ((start s).run actions).tenant? n = some i)
    {tables : Tables} (htables : i.state.tables? = some tables) :
    i.TypedAccess tables ((start s).run actions).site (Arena.baseAddress address buffer) := by
  have ht := start_sound hs
  refine ((ht.run actions).tenants n i hi).typedAccess htables fun hsize => ?_
  rw [ht.size_run] at hsize
  refine Arena.dvd_baseAddress address buffer ?_
  rw [Arena.capacity, ← hmemory]
  exact hsize

/-- A store in a buffer that starts at no aligned address. -/
def skewedStart : Site Unit Unit :=
  .ofBuffer 5 (.replicate 400 255) () ()

theorem stateful_check : (Graph.Sample.stateful 3).check = .ok () :=
  rfl

theorem simple_check : Graph.Sample.simple.check = .ok () :=
  rfl

/-- One tenant keeps a count, with a scratch block of three bytes and persistent data, and one adds a
constant. -/
def skewedActions : List (Action Unit Unit) :=
  [.enter ⟨Graph.Sample.stateful 3, stateful_check⟩ fun _ =>
      some (.always (SampleKernel.simpleStateful id)),
    .enter ⟨Graph.Sample.simple, simple_check⟩ fun _ =>
      some (.always (SampleKernel.mockCustom id)),
    .equip 0 ⟨.linear, Strategy.linear_sound⟩ none true,
    .equip 1 ⟨.linear, Strategy.linear_sound⟩ none true,
    .request .tail 3 1 .allocatorInternal, .allocate 0, .allocate 1]

/-- Both tenants read at addresses that count from 16. -/
theorem run_keeps_access_typed_of_skewed :
    ∃ i j, ((start skewedStart).run skewedActions).tenant? 0 = some i ∧
      ((start skewedStart).run skewedActions).tenant? 1 = some j ∧
      i.state = .allocated ⟨352, 304, 240⟩ ∧ j.state = .allocated ⟨224, 192, 128⟩ ∧
      i.TypedAccess ⟨352, 304, 240⟩ ((start skewedStart).run skewedActions).site 16 ∧
      j.TypedAccess ⟨224, 192, 128⟩ ((start skewedStart).run skewedActions).site 16 := by
  have hfirst : (((start skewedStart).run skewedActions).tenant? 0).map Interpreter.state =
      some (.allocated ⟨352, 304, 240⟩) := by
    decide +kernel
  have hsecond : (((start skewedStart).run skewedActions).tenant? 1).map Interpreter.state =
      some (.allocated ⟨224, 192, 128⟩) := by
    decide +kernel
  have hbase : Arena.baseAddress 5 (.replicate 400 255) = 16 := by decide +kernel
  have hsound : skewedStart.Sound := Site.ofBuffer_sound ..
  obtain ⟨i, hi, hi'⟩ := Option.map_eq_some_iff.mp hfirst
  obtain ⟨j, hj, hj'⟩ := Option.map_eq_some_iff.mp hsecond
  refine ⟨i, j, hi, hj, hi', hj', ?_, ?_⟩
  · rw [← hbase]
    exact run_keeps_access_typed hsound rfl skewedActions hi (by rw [hi']; rfl)
  · rw [← hbase]
    exact run_keeps_access_typed hsound rfl skewedActions hj (by rw [hj']; rfl)

end Tenancy

end TensorArena
