import TensorArena.Kernel.Sample
import TensorArena.Proofs.Interpreter.Bound
import TensorArena.Proofs.Interpreter.Holdings
import TensorArena.Proofs.Interpreter.RecordTables
import TensorArena.Proofs.Tenancy.Invariant

/-!
# Spans that lose nothing

The tables of an interpreter keep offsets and lengths in 32 bits, and one offset of 32 bits is the mark
of a tensor without a buffer. A range that ends within 32 bits keeps its offset and its length, but an
empty range at the largest of these offsets would be taken for the mark. No pass enters such a range,
for the mark is odd, and all blocks and all offsets in them are multiples of the alignment.

`Reserved` says what a pass was granted, and `Recorded` that the tables read back as just that.
-/

namespace TensorArena

variable {σ π : Type}

/-- The span is that of the range, or the mark where there is none. -/
def Span.Stands (span : Span) : Option ByteRange → Prop
  | some r => span.IsPlaced ∧ span.range = r
  | none => span = .unplaced ∧ ¬ span.IsPlaced

theorem Span.stands_of_range {span : Span} {r : ByteRange} (h : span.range = r)
    (hdvd : arenaAlignment ∣ r.offset) : span.Stands (some r) :=
  ⟨Span.isPlaced_of_dvd (h ▸ hdvd), h⟩

theorem Span.stands_unplaced : Span.unplaced.Stands none :=
  ⟨rfl, Span.not_isPlaced_unplaced⟩

/-- The span of an empty range at the largest offset is the mark itself. -/
example : Span.make Word.max32 0 = .ok .unplaced :=
  rfl

/-- An aligned range that ends within 32 bits is not cut off by its span. -/
theorem Pass.stands_rangeSpan {r : Option ByteRange} (hreach : ∀ q, r = some q → q.stop ≤ Word.max32)
    (hdvd : ∀ q, r = some q → arenaAlignment ∣ q.offset) : (rangeSpan r).Stands r := by
  cases r with
  | none => exact Span.stands_unplaced
  | some q =>
    have hmake : Span.make q.offset q.length = .ok (rangeSpan (some q)) :=
      Span.make_eq_ok (hreach q rfl)
    exact Span.stands_of_range (Span.make_ok hmake).2.1 (hdvd q rfl)

/-- The placement is one of the plan's and ends in its block. -/
def Home.Holds (home : Home) (q : Placement) : Prop :=
  q ∈ home.plan.placements ∧ (Pass.placedRange home.base q).stop ≤ home.range.stop

/-- A placement whose span could be made stands where the plan has it, which is in its block. -/
theorem Home.stands_of_kept {home : Home} {lifetimes : List Lifetime} {room : Nat}
    (hk : home.plan.Kept lifetimes arenaAlignment room) (hbase : arenaAlignment ∣ home.base)
    {q : Placement} (hq : q ∈ home.plan.placements) (hstop : q.stop < Word.max) {span : Span}
    (hrange : span.range = Pass.placedRange home.base q) :
    home.Holds q ∧ span.Stands (some (Pass.placedRange home.base q)) := by
  obtain ⟨hdvd, -, hle⟩ := Pass.placedRange_inside hk hbase hq hstop
  exact ⟨⟨hq, hle⟩, Span.stands_of_range hrange hdvd⟩

namespace Holdings

/-- What the rows of a tensor table stand for, row by row: the block of a variable, the place of a
planned activation in the block of all activations, and nothing for all other tensors. -/
structure TensorRows (h : Holdings) (g : Graph) (row : Nat → Span → Prop) : Prop where
  vars : ∀ (id : Nat) r, h.vars[id]? = some (some r) → ∃ span, row id span ∧ span.Stands (some r)
  planned : ∀ id l, g.Planned id l → ∃ q, h.activations.Holds q ∧ q.lifetime = l ∧
    ∃ span, row id span ∧ span.Stands (some (Pass.placedRange h.activations.base q))
  other : ∀ (id : Nat) t, g.tensors[id]? = some t → t.isVariable = false →
    (∀ l, ¬ g.Planned id l) → ∃ span, row id span ∧ span.Stands none

theorem TensorRows.mono {h : Holdings} {g : Graph} {row row' : Nat → Span → Prop}
    (hrows : h.TensorRows g row) (himp : ∀ id span, row id span → row' id span) :
    h.TensorRows g row' where
  vars id r hr := by
    obtain ⟨span, hrow, hstands⟩ := hrows.vars id r hr
    exact ⟨span, himp id span hrow, hstands⟩
  planned id l hl := by
    obtain ⟨q, hq, hlife, span, hrow, hstands⟩ := hrows.planned id l hl
    exact ⟨q, hq, hlife, span, himp id span hrow, hstands⟩
  other id t ht hv hnot := by
    obtain ⟨span, hrow, hstands⟩ := hrows.other id t ht hv hnot
    exact ⟨span, himp id span hrow, hstands⟩

/-- What the rows of a scratch table stand for: the places of the scratch blocks in their block. -/
def ScratchRows (h : Holdings) (row : Nat → Span → Prop) : Prop :=
  ∀ home, h.scratch = some home → ∀ (k : Nat) q, home.plan.placements[k]? = some q →
    home.Holds q ∧ ∃ span, row k span ∧ span.Stands (some (Pass.placedRange home.base q))

/-- The tables in a memory read back as what is held. -/
structure Recorded (h : Holdings) (tables : Tables) (g : Graph) (m : Memory) : Prop where
  /-- Every operator has the span of its persistent data. -/
  persistent : ∀ (k : Nat) r, h.persistent[k]? = some r →
    ∃ row, m.readRow OpRow.layout tables.operators k = .ok row ∧ row.userData.Stands r
  tensors : h.TensorRows g fun id span => m.readRow Span.layout tables.tensors id = .ok span
  scratch : h.ScratchRows fun k span => m.readRow Span.layout tables.scratch k = .ok span

/-! ## Aligned blocks -/

variable {h : Holdings} {g : Graph} {kernels : List (Kernel σ)} {strategy : Strategy}
  {s s' : Site σ π} {tables : Tables}

theorem Reserved.vars_aligned (hr : h.Reserved g kernels strategy s s' tables) {r : ByteRange}
    (hmem : some r ∈ h.vars) : arenaAlignment ∣ r.offset := by
  refine hr.gains.aligned (.aligned .tail r) ?_
  have hheld : Block.aligned .tail r ∈ h.vars.flatMap Block.held :=
    List.mem_flatMap.mpr ⟨some r, hmem, List.mem_singleton_self _⟩
  simp only [blocks, List.mem_append, hheld, or_true, true_or]

theorem Reserved.activations_aligned (hr : h.Reserved g kernels strategy s s' tables) :
    arenaAlignment ∣ h.activations.base := by
  by_cases hpeak : 0 < h.activations.plan.peak
  · refine hr.gains.aligned (.aligned .tail h.activations.range) ?_
    simp only [blocks, if_pos hpeak, List.mem_append, List.mem_singleton, or_true, true_or]
  · rw [hr.base_eq (Nat.eq_zero_of_not_pos hpeak)]
    exact Nat.dvd_zero _

theorem Reserved.scratch_aligned (hr : h.Reserved g kernels strategy s s' tables) {home : Home}
    (hhome : h.scratch = some home) : arenaAlignment ∣ home.base := by
  refine hr.gains.aligned (.aligned .head home.range) ?_
  simp only [blocks, hhome, Pass.scratchBlocks, List.mem_append, List.mem_cons, or_true, true_or]

/-! ## Rows -/

/-- Entering the plan changes the spans of planned activations only. -/
theorem Reserved.entered (hr : h.Reserved g kernels strategy s s' tables) (hsound : strategy.Sound)
    {spans : List Span}
    (henter : Pass.enterSpans h.activations.base (h.vars.map Pass.rangeSpan)
      h.activations.plan.placements = .ok spans) :
    spans.length = g.tensors.length ∧
      (∀ id, (∀ l, ¬ g.Planned id l) → spans[id]? = (h.vars.map Pass.rangeSpan)[id]?) ∧
      Pass.Entered g h.activations.plan h.activations.base spans := by
  obtain ⟨room, hplace⟩ := hr.activations
  have hlength : (h.vars.map Pass.rangeSpan).length = g.tensors.length := by
    rw [List.length_map, hr.vars.length_eq]
  obtain ⟨hspans, hkept, hentered⟩ :=
    Pass.enterSpans_of_plan hlength (hsound _ _ _ _ hplace) henter
  exact ⟨hspans.trans hlength, hkept, hentered⟩

/-- The spans that were entered are the blocks of variables, the places of planned activations, and
the mark everywhere else. -/
theorem Reserved.tensorRows (hr : h.Reserved g kernels strategy s s' tables)
    (hsound : strategy.Sound) {spans : List Span}
    (henter : Pass.enterSpans h.activations.base (h.vars.map Pass.rangeSpan)
      h.activations.plan.placements = .ok spans) :
    h.TensorRows g fun id span => spans[id]? = some span := by
  obtain ⟨room, hplace⟩ := hr.activations
  have hk := hsound _ _ _ _ hplace
  obtain ⟨-, hkept, hentered⟩ := hr.entered hsound henter
  have hsize {id : Nat} {t : Tensor} (ht : g.tensors[id]? = some t) :
      ∃ r, h.vars[id]? = some r ∧
        r.map ByteRange.length = if t.isVariable then some t.size else none := by
    have hentry := congrArg (·[id]?) hr.vars.sizes
    simpa [List.getElem?_map, ht] using hentry
  have hspan {id : Nat} {r : Option ByteRange} (hget : h.vars[id]? = some r)
      (hnot : ∀ l, ¬ g.Planned id l) : ∃ span : Span, spans[id]? = some span ∧ span.Stands r := by
    have hmem : r ∈ h.vars := List.mem_of_getElem? hget
    refine ⟨Pass.rangeSpan r, by rw [hkept id hnot, List.getElem?_map, hget, Option.map_some], ?_⟩
    exact Pass.stands_rangeSpan (fun q hq => hr.vars.reach q (hq ▸ hmem))
      fun q hq => hr.vars_aligned (hq ▸ hmem)
  refine ⟨fun id r hget => hspan hget fun l hl => ?_, fun id l hl => ?_, fun id t ht hv hnot => ?_⟩
  · -- A planned tensor is an activation, and no activation is a variable.
    obtain ⟨t, ht, hkind, -⟩ := hl
    obtain ⟨r', hget', hlen⟩ := hsize ht
    cases hget.symm.trans hget'
    rw [(Tensor.data_of_kind_activation hkind).2] at hlen
    cases hlen
  · obtain ⟨q, hq, hlife, hstop, span, hget, hrange⟩ := hentered id l hl
    obtain ⟨hholds, hstands⟩ := Home.stands_of_kept hk hr.activations_aligned hq hstop hrange
    exact ⟨q, hholds, hlife, span, hget, hstands⟩
  · obtain ⟨r, hget, hlen⟩ := hsize ht
    rw [hv] at hlen
    obtain rfl : r = none := by simpa using hlen
    exact hspan hget hnot

/-- The spans of a plan's placements, row by row. -/
theorem Reserved.scratchRow (hr : h.Reserved g kernels strategy s s' tables)
    (hsound : strategy.Sound) {home : Home} (hhome : h.scratch = some home) {rows : List Span}
    (hrows : home.plan.placements.mapM (Pass.placedSpan home.base) = .ok rows) {k : Nat}
    {q : Placement} (hq : home.plan.placements[k]? = some q) :
    home.Holds q ∧ ∃ span : Span, rows[k]? = some span ∧
      span.Stands (some (Pass.placedRange home.base q)) := by
  obtain ⟨room, hplace⟩ := hr.scratch.2 home hhome
  obtain ⟨hlength, hall⟩ := Pass.mapM_ok hrows
  have hlt : k < rows.length := hlength ▸ (List.getElem?_eq_some_iff.mp hq).1
  have hzip : (home.plan.placements.zip rows)[k]? = some (q, rows[k]) :=
    List.getElem?_zip_eq_some.mpr ⟨hq, List.getElem?_eq_getElem hlt⟩
  obtain ⟨hrange, hstop⟩ := Pass.placedSpan_ok (hall _ (List.mem_of_getElem? hzip))
  obtain ⟨hholds, hstands⟩ := Home.stands_of_kept (hsound _ _ _ _ hplace)
    (hr.scratch_aligned hhome) (List.mem_of_getElem? hq) hstop hrange
  exact ⟨hholds, rows[k], List.getElem?_eq_getElem hlt, hstands⟩

end Holdings

namespace Pass

/-- The persistent data of an operator stand in its row. -/
theorem stands_grantSpan {k : Stretch} {grants : List Grant} (h : Granted k grants) {n : Nat}
    {grant : Grant} (hg : grants[n]? = some grant) : (grantSpan grant).Stands grant.userData := by
  have hmem := List.mem_of_getElem? hg
  have hspan : grantSpan grant = rangeSpan grant.userData := by
    unfold grantSpan
    split
    · rename_i heq
      rw [heq, rangeSpan]
    · rename_i r heq
      rw [heq, rangeSpan]
  rw [hspan]
  exact stands_rangeSpan (h.reach grant hmem) fun r hr => ((h.within grant hmem).userData r hr).aligned

/-- The scratch table is still there after the two other tables were written. -/
theorem Committed.scratchTable {g : Graph} {kernels : List (Kernel σ)} {strategy : Strategy}
    {s s' : Site σ π} {tables : Tables} {a : Allotment}
    (hc : Committed g kernels strategy s s' tables a) {h : Holdings} {spans : List Span} {m : Memory}
    (hw : h.Written tables a.rows spans m s'.memory) (hlength : spans.length = a.spans.length)
    {rows : List Span} (hcount : rows.length = a.scratch.length) (hne : a.scratch ≠ [])
    (hheld : m.HasTable Span.layout tables.scratch rows) :
    s'.memory.HasTable Span.layout tables.scratch rows := by
  obtain ⟨hoperators, htensors⟩ := hc.fits.tables_apart_scratch hne
  rw [← hcount] at hoperators htensors
  rw [← hlength] at htensors
  refine hheld.congr ?_
  rw [hw.memory_eq]
  exact (OpRow.layout_lawful.agreeOn_write _ hoperators).trans
    (Span.layout_lawful.agreeOn_write _ htensors)

theorem commit_records {s s' : Site σ π} (hs : s.Sound) {g : Graph} {kernels : List (Kernel σ)}
    (hkernels : kernels.length = g.operators.length) {strategy : Strategy} (hsound : strategy.Sound)
    {tables : Tables}
    (h : (commit g kernels strategy : Pass σ π AllocationError Tables).exec s = (.ok tables, s')) :
    ∃ holdings : Holdings, holdings.Reserved g kernels strategy s s' tables ∧
      holdings.Recorded tables g s'.memory := by
  obtain ⟨a, hcommitted⟩ := (commit_runs hs g kernels hkernels hsound).of_ok h
  obtain ⟨holdings, spans, m, hreserved, hwritten⟩ := commit_reserves hs hkernels hsound h
  have hgrants : a.grants = kernelGrants g kernels s := hcommitted.grants_eq
  refine ⟨holdings, hreserved, ?_, ?_, ?_⟩
  · intro k r hr
    rw [hreserved.persistent, List.getElem?_map, ← hgrants] at hr
    obtain ⟨grant, hgrant, rfl⟩ := Option.map_eq_some_iff.mp hr
    exact ⟨_, hcommitted.settled.row hgrant, stands_grantSpan hcommitted.fits.granted hgrant⟩
  · exact (hreserved.tensorRows hsound hwritten.spans_eq).mono
      fun id span hget => hwritten.tensors.readRow Span.layout_lawful hget
  · intro home hhome k q hq
    obtain ⟨room, hplace⟩ := hreserved.scratch.2 home hhome
    obtain ⟨rows, hrows, hheld⟩ := hwritten.scratch home hhome
    obtain ⟨hholds, span, hget, hstands⟩ := hreserved.scratchRow hsound hhome hrows hq
    have hcount : rows.length = a.scratch.length := by
      rw [hcommitted.fits.scratch.length_eq, (mapM_ok hrows).1, Allotment.lifetimes, hgrants,
        ← (hsound _ _ _ _ hplace).lifetimes_eq, List.length_map]
    have hne : a.scratch ≠ [] := by
      intro heq
      rw [heq] at hcount
      rw [List.length_eq_zero_iff.mp hcount] at hget
      cases hget
    have hspans : spans.length = a.spans.length :=
      (hreserved.entered hsound hwritten.spans_eq).1.trans hcommitted.fits.spans_length.symm
    have htable := hcommitted.scratchTable (by rw [Allotment.rows, hgrants]; exact hwritten) hspans
      hcount hne hheld
    exact ⟨hholds, span, htable.readRow Span.layout_lawful hget, hstands⟩

end Pass

/-- An interpreter that was allocated went through a pass that succeeded, and nothing else happened to
the arena. -/
theorem Interpreter.allocate_ok {i i' : Interpreter σ π} {s s' : Site σ π}
    (h : i.allocate s = (.ok (), i', s')) (hcreated : i.state = .created) :
    ∃ tables s₁, i' = { i with state := .allocated tables } ∧
      (Pass.commit i.graph.toGraph i.kernels i.strategy).exec s = (.ok tables, s₁) ∧
      s'.granted = s₁.granted ∧ s'.memory = s₁.memory := by
  unfold allocate at h
  rw [hcreated] at h
  dsimp only at h
  split at h
  · cases h
  · split at h
    · rename_i tables s₁ hexec
      cases h
      exact ⟨tables, s₁, rfl, hexec, rfl, rfl⟩
    · cases h

namespace Tenancy

/-- Whatever tenants and the holder of a store did before, a tenant that is allocated can read from its
tables what its pass was granted: the block of every variable, the place of every planned activation
and of every scratch block, and the persistent data of every operator, at their whole offsets and
lengths. All other tensors are marked as without a buffer. -/
theorem allocate_keeps_spans {s : Site σ π} (hs : s.Sound) (actions : List (Action σ π)) {n : Nat}
    {i i' : Interpreter σ π} (hi : ((start s).run actions).tenant? n = some i)
    (hcreated : i.state = .created) {s' : Site σ π}
    (hallocate : i.allocate ((start s).run actions).site = (.ok (), i', s')) :
    ∃ (tables : Tables) (holdings : Holdings), i'.state = .allocated tables ∧
      holdings.Reserved i.graph.toGraph i.kernels i.strategy ((start s).run actions).site s' tables ∧
      holdings.Recorded tables i.graph.toGraph s'.memory := by
  have hsound := (start_sound hs).run actions
  have htenant := hsound.tenants n i hi
  obtain ⟨tables, s₁, rfl, hexec, hgranted, hmemory⟩ := Interpreter.allocate_ok hallocate hcreated
  obtain ⟨holdings, hreserved, hrecorded⟩ :=
    Pass.commit_records hsound.site htenant.made.kernels_length htenant.strategy hexec
  exact ⟨tables, holdings, rfl, { hreserved with gains := hreserved.gains.before hgranted },
    hmemory ▸ hrecorded⟩

/-- A store in a buffer that starts at no aligned address. -/
def sharedStart : Site Unit Unit :=
  .ofBuffer 7 (.replicate 300 255) () ()

/-- The holder of the store keeps three bytes, and a tenant that counts its runs moves in, with a
scratch block and persistent data for its kernel. -/
def sharedActions : List (Action Unit Unit) :=
  [.request .tail 3 1 .allocatorInternal,
    .enter ⟨Graph.Sample.stateful 5, rfl⟩ fun _ =>
      some (.always (SampleKernel.simpleStateful id)),
    .equip 0 ⟨.linear, Strategy.linear_sound⟩ none true]

/-- The tables of the tenant lie below the bytes of the holder. -/
theorem allocate_keeps_spans_shared :
    ∃ (i i' : Interpreter Unit Unit) (s' : Site Unit Unit) (holdings : Holdings),
      ((start sharedStart).run sharedActions).tenant? 0 = some i ∧ i.state = .created ∧
      i.allocate ((start sharedStart).run sharedActions).site = (.ok (), i', s') ∧
      i'.state = .allocated ⟨256, 208, 144⟩ ∧
      holdings.Reserved i.graph.toGraph i.kernels i.strategy
        ((start sharedStart).run sharedActions).site s' ⟨256, 208, 144⟩ ∧
      holdings.Recorded ⟨256, 208, 144⟩ i.graph.toGraph s'.memory := by
  have hcall : (((start sharedStart).run sharedActions).tenant? 0).map (fun i =>
      let call := i.allocate ((start sharedStart).run sharedActions).site
      (i.state, call.1.toOption, call.2.1.state)) =
      some (.created, some (), .allocated ⟨256, 208, 144⟩) := by
    decide +kernel
  obtain ⟨i, hi, hcall⟩ := Option.map_eq_some_iff.mp hcall
  obtain ⟨hcreated, hcall⟩ := Prod.mk.inj hcall
  obtain ⟨hanswer, hstate⟩ := Prod.mk.inj hcall
  cases hallocate : i.allocate ((start sharedStart).run sharedActions).site with
  | mk answer after =>
    rw [hallocate] at hanswer hstate
    cases answer with
    | error e => cases hanswer
    | ok _ =>
      have hsound : sharedStart.Sound := Site.ofBuffer_sound ..
      obtain ⟨tables, holdings, htables, hreserved, hrecorded⟩ :=
        allocate_keeps_spans hsound sharedActions hi hcreated hallocate
      cases htables.symm.trans hstate
      exact ⟨i, after.1, after.2, holdings, hi, hcreated, hallocate, htables, hreserved, hrecorded⟩

end Tenancy

end TensorArena
