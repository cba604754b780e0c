import TensorArena.Proofs.Tenancy.Invariant

/-!
# Tenants never collide

In every run of a tenancy the blocks of the tail are apart from each other and from all blocks of the
head, whoever they belong to, and what an interpreter finds through its tables are blocks of its own
tenant. So no action touches a byte in a block of the tail that belongs to somebody else.
-/

namespace TensorArena

namespace Tenancy

variable {σ π : Type} {t : Tenancy σ π}

/-- The range is a block of the tail that belongs to the owner. -/
def Holds (t : Tenancy σ π) (owner : Owner) (r : ByteRange) : Prop :=
  ⟨owner, ⟨.tail, r, arenaAlignment⟩⟩ ∈ t.deeds

/-- What a row of the operator table refers to belongs to the tenant: the persistent data, the rows of
the scratch table, and for every scratch block a block of the head that it lies in. -/
structure HousesRow (t : Tenancy σ π) (number : Nat) (tables : Tables) (row : OpRow) : Prop where
  persistent : row.userData.IsPlaced → t.Holds (.tenant number) row.userData.range
  scratchTable : row.scratchCount.toNat ≠ 0 → ∃ count,
    t.Holds (.tenant number) (Memory.tableRange Span.layout tables.scratch count) ∧
    row.scratchFirst.toNat + row.scratchCount.toNat ≤ count
  scratch : ∃ ranges, t.site.memory.scratchRanges tables row = .ok ranges ∧ ∀ r ∈ ranges,
    ∃ home, ⟨.tenant number, ⟨.head, home, arenaAlignment⟩⟩ ∈ t.deeds ∧
      home.offset ≤ r.offset ∧ r.stop ≤ home.stop

/-- What a row of the tensor table refers to belongs to the tenant: a variable is a block of its own,
and an activation that has bytes lies in a block. -/
structure HousesTensor (t : Tenancy σ π) (number : Nat) (tensor : Tensor) (span : Span) : Prop where
  own : tensor.isVariable = true → t.Holds (.tenant number) span.range
  inside : span.IsPlaced → ∀ x, span.range.Covers x →
    ∃ home, t.Holds (.tenant number) home ∧ home.Covers x

/-- All that an interpreter finds through its tables belongs to its tenant. -/
structure Houses (t : Tenancy σ π) (number : Nat) (i : Interpreter σ π) (tables : Tables) :
    Prop where
  operators : t.Holds (.tenant number)
    (Memory.tableRange OpRow.layout tables.operators i.graph.operators.length)
  tensors : t.Holds (.tenant number)
    (Memory.tableRange Span.layout tables.tensors i.graph.tensors.length)
  rows : ∀ k < i.graph.operators.length, ∃ row,
    t.site.memory.readRow OpRow.layout tables.operators k = .ok row ∧ t.HousesRow number tables row
  spans : ∀ id tensor, i.graph.tensors[id]? = some tensor → tensor.data = none → ∃ span,
    t.site.memory.readRow Span.layout tables.tensors id = .ok span ∧
      t.HousesTensor number tensor span

theorem housesRow {n : Nat} {i : Interpreter σ π} {tables : Tables} {a : Allotment}
    (hl : i.Lodged tables a t.site.memory) (hblocks : ∀ b ∈ a.blocks, ⟨.tenant n, b⟩ ∈ t.deeds)
    {k : Nat} {grant : Grant} (hg : a.grants[k]? = some grant) :
    t.HousesRow n tables (a.rowOf k grant) where
  persistent hplaced := by
    have hrange := hl.fits.userRange_rowOf hg
    rw [OpRow.userRange, if_pos hplaced] at hrange
    rw [hrange]
    cases hdata : grant.userData with
    | none =>
      simp only [Allotment.rowOf, Pass.grantSpan, hdata] at hplaced
      exact absurd hplaced Span.not_isPlaced_unplaced
    | some r =>
      have hwithin := hl.fits.granted.within grant (List.mem_of_getElem? hg)
      exact hblocks _ (hwithin.userData r hdata).mem
  scratchTable hcount := by
    have hin := hl.fits.pieces_in_table hg
    have hne : a.scratch ≠ [] := by
      intro hnil
      rw [hnil, List.length_nil] at hin
      omega
    exact ⟨a.scratch.length, hblocks _ (hl.fits.scratch.took hne).mem, hin⟩
  scratch := by
    refine ⟨_, Allotment.scratchRanges_eq hl.fits hl.settled hg, fun r hr => ?_⟩
    obtain ⟨span, hspan, rfl⟩ := List.mem_map.mp hr
    obtain ⟨-, -, hblock, hlow, hhigh⟩ :=
      hl.fits.scratch_range (Allotment.mem_scratch_of_mem_pieces hspan)
    exact ⟨a.workspace, hblocks _ hblock, hlow, hhigh⟩

theorem housesTensor {n : Nat} {i : Interpreter σ π} {tables : Tables} {a : Allotment}
    (hl : i.Lodged tables a t.site.memory) (hblocks : ∀ b ∈ a.blocks, ⟨.tenant n, b⟩ ∈ t.deeds)
    {id : Nat} {tensor : Tensor} (ht : i.graph.tensors[id]? = some tensor) (hd : tensor.data = none)
    {span : Span} (hspan : a.spans[id]? = some span) : t.HousesTensor n tensor span where
  own hv := by
    obtain ⟨_, heq, -, -, htook⟩ := hl.fits.span_of_var ht (Tensor.kind_eq_var hd hv)
    cases hspan.symm.trans heq
    exact hblocks _ htook.mem
  inside hplaced x hx := by
    obtain ⟨-, hkind | ⟨l, hplan⟩⟩ := hl.fits.stored_of_isPlaced ht hd hspan hplaced
    · obtain ⟨_, heq, -, -, htook⟩ := hl.fits.span_of_var ht hkind
      cases hspan.symm.trans heq
      exact ⟨_, hblocks _ htook.mem, hx⟩
    · have hhome := hl.fits.activation_covers hplan hspan hx
      rcases hl.fits.activations.shared with hempty | htook
      · rw [hempty] at hhome
        exact absurd hhome (ByteRange.not_covers_of_length_eq_zero rfl x)
      · exact ⟨_, hblocks _ htook.mem, hhome⟩

theorem Sound.houses (ht : t.Sound) {n : Nat} {i : Interpreter σ π} (hi : t.tenant? n = some i)
    {tables : Tables} (htables : i.state.tables? = some tables) : t.Houses n i tables := by
  obtain ⟨a, hl, hblocks⟩ := (ht.tenants n i hi).lodged tables htables
  refine ⟨?_, ?_, fun k hk => ?_, fun id tensor htensor hd => ?_⟩
  · rw [← hl.fits.rows_length]
    exact hblocks _ hl.fits.operators.mem
  · rw [← hl.fits.spans_length]
    exact hblocks _ hl.fits.tensors.mem
  · obtain ⟨grant, hg⟩ := hl.fits.exists_grant (List.getElem?_eq_getElem hk)
    exact ⟨_, hl.settled.row hg, housesRow hl hblocks hg⟩
  · obtain ⟨span, hspan⟩ := hl.fits.exists_span htensor
    exact ⟨span, hl.settled.tensors.readRow Span.layout_lawful hspan,
      housesTensor hl hblocks htensor hd hspan⟩

/-- What belongs to the tail is apart from the scratch blocks of every tenant. -/
theorem Sound.scratch_apart (ht : t.Sound) {n : Nat} {tables : Tables} {row : OpRow}
    (hrow : t.HousesRow n tables row) {ranges : List ByteRange}
    (hranges : t.site.memory.scratchRanges tables row = .ok ranges) {r : ByteRange}
    (hr : r ∈ ranges) {d : Deed} (hd : d ∈ t.deeds) (htail : d.block.region = .tail) :
    r.Apart d.block.range := by
  obtain ⟨ranges', hranges', hall⟩ := hrow.scratch
  cases hranges.symm.trans hranges'
  obtain ⟨home, hhome, hlow, hhigh⟩ := hall r hr
  have hclear : d.block.Clear ⟨.head, home, arenaAlignment⟩ :=
    rel_of_mem_of_pairwise (fun _ _ hc => hc.symm) ht.clear hd hhome fun heq => by
      rw [heq] at htail
      cases htail
  refine (hclear (.inl htail)).symm.mono (fun x hx => ?_) fun _ hx => hx
  exact ⟨Nat.le_trans hlow hx.1, Nat.lt_of_lt_of_le hx.2 hhigh⟩

/-- An action leaves the blocks of the tail alone that belong to others. -/
theorem Sound.agreeOn_step (ht : t.Sound) (action : Action σ π) {d : Deed} (hd : d ∈ t.deeds)
    (htail : d.block.region = .tail) (hne : d.owner ≠ t.actor action) :
    t.site.memory.AgreeOn (t.step action).site.memory d.block.range := by
  have ha := (ht.next_act action).acted
  refine ⟨ha.size_eq, fun x hx => ha.agree x ?_ (ht.not_owns hd htail hne hx)⟩
  have hholds := ht.site.holds d.block (ht.deeds ▸ List.mem_map_of_mem hd)
  rw [Arena.Holds, htail] at hholds
  exact Nat.le_trans hholds.1 hx.1

/-- What tenants and the holder can rely on. -/
structure Separated (t : Tenancy σ π) : Prop where
  /-- Every block that the store granted has one owner. -/
  owned : t.deeds.map Deed.block = t.site.granted
  /-- A block of the tail shares no byte with any other block. -/
  apart : t.deeds.Pairwise fun d d' => d.block.region = .tail ∨ d'.block.region = .tail →
    d.block.range.Apart d'.block.range
  /-- Through its tables an interpreter finds blocks of its own tenant only. -/
  housed : ∀ n i tables, t.tenant? n = some i → i.state.tables? = some tables →
    t.Houses n i tables
  /-- A block of the tail shares no byte with the scratch blocks of anybody. -/
  scratch_apart : ∀ n i tables k row ranges, t.tenant? n = some i →
    i.state.tables? = some tables → k < i.graph.operators.length →
    t.site.memory.readRow OpRow.layout tables.operators k = .ok row →
    t.site.memory.scratchRanges tables row = .ok ranges →
    ∀ r ∈ ranges, ∀ d ∈ t.deeds, d.block.region = .tail → r.Apart d.block.range
  /-- Whoever acts next changes no byte in a block of the tail that belongs to somebody else. -/
  untouched : ∀ action, ∀ d ∈ t.deeds, d.block.region = .tail → d.owner ≠ t.actor action →
    t.site.memory.AgreeOn (t.step action).site.memory d.block.range

/-- Whatever tenants and the holder do and in whatever order, they never collide. -/
theorem run_separates_owners {s : Site σ π} (hs : s.Sound) (actions : List (Action σ π)) :
    ((start s).run actions).Separated := by
  have ht := (start_sound hs).run actions
  refine ⟨ht.deeds, ht.clear, fun n i tables hi htables => ht.houses hi htables, ?_,
    fun action d hd htail hne => ht.agreeOn_step action hd htail hne⟩
  intro n i tables k row ranges hi htables hk hread hranges r hr d hd htail
  obtain ⟨row', hread', hrow⟩ := (ht.houses hi htables).rows k hk
  cases hread.symm.trans hread'
  exact ht.scratch_apart hrow hranges hr hd htail

/-- Two tenants and a block of the holder. -/
theorem run_separates_owners_of_sample :
    ∃ i j, (sampleStart.run (sampleActions .firstFit)).tenant? 0 = some i ∧
      i.state = .allocated ⟨512, 448, 336⟩ ∧
      (sampleStart.run (sampleActions .firstFit)).tenant? 1 = some j ∧
      j.state = .allocated ⟨288, 224, 112⟩ ∧
      (sampleStart.run (sampleActions .firstFit)).Separated := by
  obtain ⟨i, j, hi, histate, hj, hjstate⟩ := sample_tenants
  have hsound : Site.Sound (Site.ofBuffer 7 (.replicate 600 255) () () : Site Unit Unit) :=
    Site.ofBuffer_sound ..
  exact ⟨i, j, hi, histate, hj, hjstate, run_separates_owners hsound (sampleActions .firstFit)⟩

end Tenancy

end TensorArena
