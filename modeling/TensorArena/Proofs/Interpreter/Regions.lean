import TensorArena.Interpreter.Binding
import TensorArena.Proofs.Interpreter.Allotment

/-!
# Where things lie

What follows from an allotment that fits: the range of every tensor that has bytes in the arena, the
persistent data and the scratch blocks of every operator, and which of these are apart. Things of
different kinds are apart because their stages took different stretches of the tail; `Lies` keeps the
two positions of such a stretch and forgets the rest.
-/

namespace TensorArena

/-! ## Stretches -/

namespace ByteRange

/-- The bytes of the range lie between two positions. -/
def Lies (r : ByteRange) (low high : Nat) : Prop :=
  ∀ x, r.Covers x → low ≤ x ∧ x < high

theorem Lies.apart {r r' : ByteRange} {low mid mid' high : Nat} (h : r.Lies mid high)
    (h' : r'.Lies low mid') (hle : mid' ≤ mid) : r.Apart r' := by
  intro x hx hx'
  have := (h x hx).1
  have := (h' x hx').2
  omega

theorem Lies.mono {r : ByteRange} {low low' high high' : Nat} (h : r.Lies low high)
    (hlow : low' ≤ low) (hhigh : high ≤ high') : r.Lies low' high' := by
  intro x hx
  have := h x hx
  omega

theorem lies_of_le {r : ByteRange} {low high : Nat} (hlow : low ≤ r.offset)
    (hhigh : r.stop ≤ high) : r.Lies low high := by
  rintro x ⟨h₁, h₂⟩
  omega

end ByteRange

theorem Stretch.Took.lies {k : Stretch} {r : ByteRange} (h : k.Took r) : r.Lies k.low k.high :=
  ByteRange.lies_of_le h.low_le h.stop_le

/-! ## Rows and scratch blocks by operator -/

namespace Pass

/-- The number of scratch blocks granted to the kernels before number `k`. -/
def scratchBefore (grants : List Grant) (k : Nat) : Nat :=
  total ((grants.take k).map fun g => g.scratch.length)

theorem getElem?_grantRows {grants : List Grant} {k : Nat} {grant : Grant} (first : Nat)
    (h : grants[k]? = some grant) :
    (grantRows first grants)[k]? = some ⟨grantSpan grant,
      UInt32.ofNat (first + scratchBefore grants k), UInt32.ofNat grant.scratch.length⟩ := by
  induction grants generalizing first k with
  | nil => cases h
  | cons g rest ih =>
    cases k with
    | zero =>
      cases h
      rfl
    | succ k =>
      rw [grantRows, List.getElem?_cons_succ, ih _ (by simpa using h)]
      simp only [scratchBefore, List.take_succ_cons, List.map_cons, total, List.foldr_cons,
        Nat.add_assoc]

/-- The scratch blocks of a kernel stand together, behind those of the kernels before it. -/
theorem slice_grantLifetimes {grants : List Grant} {k : Nat} {grant : Grant} (index : Nat)
    (h : grants[k]? = some grant) :
    scratchBefore grants k + grant.scratch.length ≤ (grantLifetimes index grants).length ∧
      ((grantLifetimes index grants).drop (scratchBefore grants k)).take grant.scratch.length =
        grant.scratch.zipIdx.map fun (size, j) => Lifetime.scratch (index + k) j size := by
  induction grants generalizing index k with
  | nil => cases h
  | cons g rest ih =>
    have hlen : (g.scratch.zipIdx.map fun (size, j) => Lifetime.scratch index j size).length =
        g.scratch.length := by
      rw [List.length_map, List.length_zipIdx]
    cases k with
    | zero =>
      cases h
      have hbefore : scratchBefore (grant :: rest) 0 = 0 := rfl
      rw [grantLifetimes, hbefore, List.length_append, hlen]
      exact ⟨by omega, List.take_left' hlen⟩
    | succ k =>
      obtain ⟨hle, hslice⟩ := ih (index + 1) (k := k) (by simpa using h)
      have hbefore : scratchBefore (g :: rest) (k + 1) =
          g.scratch.length + scratchBefore rest k := rfl
      rw [grantLifetimes, hbefore, List.length_append, hlen]
      refine ⟨by omega, ?_⟩
      rw [← List.drop_drop, List.drop_left' hlen, hslice, Nat.add_assoc, Nat.add_comm 1 k]

theorem length_grantLifetimes (index : Nat) (grants : List Grant) :
    (grantLifetimes index grants).length = total (grants.map fun g => g.scratch.length) := by
  induction grants generalizing index with
  | nil => rfl
  | cons grant rest ih =>
    rw [grantLifetimes, List.length_append, List.length_map, List.length_zipIdx, ih]
    rfl

/-- Kernels ask for few scratch blocks each. -/
theorem length_grantLifetimes_le {grants : List Grant} (index : Nat)
    (h : ∀ grant ∈ grants, grant.scratch.length ≤ maxScratch) :
    (grantLifetimes index grants).length ≤ maxScratch * grants.length := by
  rw [length_grantLifetimes]
  induction grants with
  | nil => exact Nat.zero_le _
  | cons grant rest ih =>
    obtain ⟨hfirst, hrest⟩ := List.forall_mem_cons.mp h
    have hle := ih hrest
    rw [List.map_cons, total, List.foldr_cons, List.length_cons, Nat.mul_succ]
    rw [total] at hle
    omega

end Pass

namespace Allotment

variable {a : Allotment} {g : Graph} {tables : Tables} {k : Nat} {op : Operator}

/-- The spans of the scratch blocks that a row lists. -/
def pieces (a : Allotment) (row : OpRow) : List Span :=
  (a.scratch.drop row.scratchFirst.toNat).take row.scratchCount.toNat

/-- The row of an operator that was granted so much. -/
def rowOf (a : Allotment) (k : Nat) (grant : Grant) : OpRow :=
  ⟨Pass.grantSpan grant, UInt32.ofNat (Pass.scratchBefore a.grants k),
    UInt32.ofNat grant.scratch.length⟩

theorem Fits.exists_grant (h : a.Fits g tables) (hop : g.operators[k]? = some op) :
    ∃ grant, a.grants[k]? = some grant := by
  have hlt := (List.getElem?_eq_some_iff.mp hop).1
  rw [← h.grants_length] at hlt
  exact ⟨_, List.getElem?_eq_getElem hlt⟩

theorem getElem?_rows {grant : Grant} (h : a.grants[k]? = some grant) :
    a.rows[k]? = some (a.rowOf k grant) := by
  rw [rows, Pass.getElem?_grantRows 0 h, Nat.zero_add]
  rfl

/-! ### Scratch blocks -/

theorem toNat_scratchCount {grant : Grant} (h : grant.scratch.length ≤ maxScratch) :
    (a.rowOf k grant).scratchCount.toNat = grant.scratch.length := by
  have : maxScratch = 4 := rfl
  simp only [rowOf, UInt32.toNat_ofNat']
  exact Nat.mod_eq_of_lt (by omega)

theorem Fits.scratch_le (h : a.Fits g tables) {grant : Grant} (hg : a.grants[k]? = some grant) :
    grant.scratch.length ≤ maxScratch :=
  (h.granted.within grant (List.mem_of_getElem? hg)).scratch_le

/-- The rows that an operator row lists exist. -/
theorem Fits.pieces_in_table (h : a.Fits g tables) {grant : Grant}
    (hg : a.grants[k]? = some grant) :
    (a.rowOf k grant).scratchFirst.toNat + (a.rowOf k grant).scratchCount.toNat ≤
      a.scratch.length := by
  have hle := (Pass.slice_grantLifetimes 0 hg).1
  have hmod := Nat.mod_le (Pass.scratchBefore a.grants k) (2 ^ 32)
  have hlen : a.scratch.length = (Pass.grantLifetimes 0 a.grants).length := h.scratch.length_eq
  rw [toNat_scratchCount (h.scratch_le hg), hlen]
  simp only [rowOf, UInt32.toNat_ofNat']
  omega

theorem Fits.length_pieces (h : a.Fits g tables) {grant : Grant} (hg : a.grants[k]? = some grant) :
    (a.pieces (a.rowOf k grant)).length = grant.scratch.length := by
  have hin := h.pieces_in_table hg
  rw [pieces, List.length_take, List.length_drop, ← toNat_scratchCount (a := a) (k := k)
    (h.scratch_le hg)]
  omega

theorem mem_scratch_of_mem_pieces {row : OpRow} {span : Span} (h : span ∈ a.pieces row) :
    span ∈ a.scratch :=
  List.mem_of_mem_drop (List.mem_of_mem_take h)

/-- A scratch block lies below everything else that belongs to the interpreter. -/
theorem Fits.scratch_range (h : a.Fits g tables) {span : Span} (hs : span ∈ a.scratch) :
    arenaAlignment ∣ span.range.offset ∧ span.range.stop ≤ a.stages.scratch ∧
      ⟨.head, a.workspace, arenaAlignment⟩ ∈ a.blocks ∧
      a.workspace.offset ≤ span.range.offset ∧ span.range.stop ≤ a.workspace.stop := by
  have hne : a.scratch ≠ [] := List.ne_nil_of_mem hs
  obtain ⟨i, hi⟩ := List.mem_iff_getElem?.mp hs
  have hlt : i < a.lifetimes.length := by
    rw [← h.scratch.length_eq]
    exact (List.getElem?_eq_some_iff.mp hi).1
  have hmem : (a.lifetimes[i], span) ∈ a.lifetimes.zip a.scratch := by
    apply List.mem_iff_getElem?.mpr
    exact ⟨i, List.getElem?_zip_eq_some.mpr ⟨List.getElem?_eq_getElem hlt, hi⟩⟩
  obtain ⟨-, h₁, h₂, h₃⟩ := h.scratch.each _ hmem
  obtain ⟨hblock, hlow⟩ := h.scratch.shared hne
  exact ⟨h₁, Nat.le_trans h₃ hlow, hblock, h₂, h₃⟩

/-- The lifetimes of one operator's scratch blocks. -/
def operatorLifetimes (k : Nat) (grant : Grant) : List Lifetime :=
  grant.scratch.zipIdx.map fun (size, j) => Lifetime.scratch k j size

theorem operatorLifetimes_pairwise (k : Nat) (grant : Grant) :
    (operatorLifetimes k grant).Pairwise fun l l' => l.buffer ≠ l'.buffer ∧ l.Overlaps l' := by
  rw [operatorLifetimes, List.pairwise_map]
  refine (Graph.zipIdx_pairwise_lt grant.scratch).imp ?_
  rintro ⟨size, j⟩ ⟨size', j'⟩ hlt
  refine ⟨fun heq => ?_, Nat.le_refl _, Nat.le_refl _⟩
  cases heq
  exact Nat.lt_irrefl _ hlt

theorem map_size_operatorLifetimes (k : Nat) (grant : Grant) :
    (operatorLifetimes k grant).map Lifetime.size = grant.scratch := by
  rw [operatorLifetimes, List.map_map]
  exact List.zipIdx_map_fst ..

/-- While scratch rows can be numbered by 32-bit words, the rows of an operator are its own. -/
theorem Fits.zip_pieces (h : a.Fits g tables) {grant : Grant} (hg : a.grants[k]? = some grant)
    (hnumber : a.scratch.length ≤ 2 ^ 32) :
    (operatorLifetimes k grant).zip (a.pieces (a.rowOf k grant)) =
      ((a.lifetimes.zip a.scratch).drop (Pass.scratchBefore a.grants k)).take
        grant.scratch.length := by
  obtain ⟨hle, hslice⟩ := Pass.slice_grantLifetimes 0 hg
  rw [Nat.zero_add] at hslice
  have hlen : a.scratch.length = (Pass.grantLifetimes 0 a.grants).length := h.scratch.length_eq
  rcases Nat.eq_zero_or_pos grant.scratch.length with hzero | hpos
  · rw [operatorLifetimes, List.eq_nil_of_length_eq_zero hzero]
    simp
  · -- The operator has a row, so its first row has a number below `2 ^ 32`.
    have hfirst : (a.rowOf k grant).scratchFirst.toNat = Pass.scratchBefore a.grants k := by
      simp only [rowOf, UInt32.toNat_ofNat']
      exact Nat.mod_eq_of_lt (by omega)
    rw [pieces, hfirst, toNat_scratchCount (h.scratch_le hg), lifetimes, operatorLifetimes, ← hslice]
    simp only [List.zip, List.drop_zipWith, List.take_zipWith]

/-- The scratch blocks of an operator have the sizes that its kernel asked for, and are apart. -/
theorem Fits.pieces_apart (h : a.Fits g tables) {grant : Grant} (hg : a.grants[k]? = some grant)
    (hnumber : a.scratch.length ≤ 2 ^ 32) :
    (a.pieces (a.rowOf k grant)).map (fun span => span.range.length) = grant.scratch ∧
      (a.pieces (a.rowOf k grant)).Pairwise fun s s' => s.range.Apart s'.range := by
  have hzip := h.zip_pieces hg hnumber
  have hlen : (operatorLifetimes k grant).length = (a.pieces (a.rowOf k grant)).length := by
    rw [h.length_pieces hg, operatorLifetimes, List.length_map, List.length_zipIdx]
  have hfst := List.map_fst_zip (Nat.le_of_eq hlen)
  have hsnd := List.map_snd_zip (Nat.le_of_eq hlen.symm)
  refine ⟨?_, ?_⟩
  · rw [← map_size_operatorLifetimes k grant]
    conv => lhs; rw [← hsnd]
    conv => rhs; rw [← hfst]
    rw [List.map_map, List.map_map, hzip]
    refine List.map_congr_left fun p hp => ?_
    exact (h.scratch.each p (List.mem_of_mem_drop (List.mem_of_mem_take hp))).1
  · have hpairs := (h.scratch.apart.drop (i := Pass.scratchBefore a.grants k)).take
      (i := grant.scratch.length)
    rw [← hzip] at hpairs
    have hown := operatorLifetimes_pairwise k grant
    rw [← hfst, List.pairwise_map] at hown
    rw [← hsnd, List.pairwise_map]
    exact (hown.and hpairs).imp fun {p q} ⟨⟨hne, hover⟩, hapart⟩ => hapart hne hover

/-! ### Tensors -/

/-- The span of a variable in the tensor table is the one it was reserved with. -/
theorem Fits.span_of_var (h : a.Fits g tables) {id : Nat} {t : Tensor}
    (ht : g.tensors[id]? = some t) (hkind : t.kind = .var) :
    ∃ span, a.spans[id]? = some span ∧ (g.tensors.zip a.vars)[id]? = some (t, span) ∧
      span.range.length = t.size ∧
      Stretch.Took ⟨a.blocks, a.stages.vars, a.stages.tensors⟩ span.range := by
  obtain ⟨-, hv⟩ := Tensor.data_of_kind_var hkind
  have hlt := (List.getElem?_eq_some_iff.mp ht).1
  rw [← h.vars.length_eq] at hlt
  have hget := List.getElem?_eq_getElem hlt
  have hzip : (g.tensors.zip a.vars)[id]? = some (t, a.vars[id]) :=
    List.getElem?_zip_eq_some.mpr ⟨ht, hget⟩
  have hspan := h.vars.each _ (List.mem_of_getElem? hzip)
  refine ⟨a.vars[id], ?_, hzip, hspan.length_eq hv, hspan.took hv⟩
  rw [h.activations.other id, hget]
  intro l hl
  have hactivation := hl.kind_eq ht
  rw [hkind] at hactivation
  cases hactivation

/-- The block of all activations lies in its stretch. -/
theorem Fits.activations_lies (h : a.Fits g tables) :
    a.activations.Lies a.stages.activations a.stages.vars ∧
      a.activations.stop ≤ a.stages.start := by
  obtain ⟨h₁, h₂, h₃, h₄, h₅, h₆⟩ := h.falling
  rcases h.activations.shared with heq | htook
  · rw [heq]
    exact ⟨fun x hx => absurd hx (ByteRange.not_covers_of_length_eq_zero rfl x), Nat.zero_le _⟩
  · have := htook.stop_le
    exact ⟨htook.lies, by dsimp only at this; omega⟩

/-- Where a tensor that has bytes in the arena finds them. -/
theorem Fits.stored (h : a.Fits g tables) {id : Nat} {t : Tensor} (hs : g.Stored id t) :
    ∃ span, a.spans[id]? = some span ∧ span.IsPlaced ∧ span.range.length = t.size ∧
      arenaAlignment ∣ span.range.offset ∧
      span.range.Lies a.stages.activations a.stages.tensors ∧
      span.range.stop ≤ a.stages.start := by
  obtain ⟨h₁, h₂, h₃, h₄, h₅, h₆⟩ := h.falling
  obtain ⟨ht, hkind | ⟨l, hl⟩⟩ := hs
  · obtain ⟨span, hspan, -, hlen, htook⟩ := h.span_of_var ht hkind
    have hstop := htook.stop_le
    dsimp only at hstop
    exact ⟨span, hspan, Span.isPlaced_of_dvd htook.aligned, hlen, htook.aligned,
      htook.lies.mono h₅ (Nat.le_refl _), by omega⟩
  · obtain ⟨span, hspan, hlen, hdvd, hlow, hhigh⟩ := h.activations.placed id l hl
    obtain ⟨hlies, hstop⟩ := h.activations_lies
    refine ⟨span, hspan, Span.isPlaced_of_dvd hdvd, by rw [hlen, hl.size_eq ht], hdvd, ?_, by omega⟩
    rintro x ⟨hx, hx'⟩
    have := hlies x ⟨by omega, by omega⟩
    omega

/-! ### Numbers of scratch rows -/

/-- With more scratch blocks than 32-bit words can number, their table alone takes 32 GiB. -/
theorem Fits.lt_activations (h : a.Fits g tables) (hwrap : 2 ^ 32 < a.scratch.length) :
    2 ^ 35 < a.stages.activations := by
  have hne : a.scratch ≠ [] := by
    intro hnil
    rw [hnil] at hwrap
    cases hwrap
  have hstop := (h.scratch.took hne).stop_le
  have hlayout : Span.layout.size = 8 := rfl
  simp only [ByteRange.stop, Memory.tableRange, hlayout] at hstop
  omega

/-- No span reaches past such a table, so no tensor has a byte. -/
theorem Fits.size_eq_zero (h : a.Fits g tables) (hwrap : 2 ^ 32 < a.scratch.length) {id : Nat}
    {t : Tensor} (hs : g.Stored id t) : t.size = 0 := by
  have htable := h.lt_activations hwrap
  obtain ⟨span, -, -, hlen, -, hlies, -⟩ := h.stored hs
  rw [← hlen]
  refine Nat.eq_zero_of_not_pos fun hpos => ?_
  have hlow := (hlies span.range.offset ⟨Nat.le_refl _, Nat.lt_add_of_pos_right hpos⟩).1
  have hword : span.range.offset < 2 ^ 32 := span.offset.toNat_lt
  omega

theorem Fits.length_scratch_le (h : a.Fits g tables) :
    a.scratch.length ≤ maxScratch * g.operators.length := by
  rw [h.scratch.length_eq, ← h.grants_length]
  exact Pass.length_grantLifetimes_le 0 fun grant hgrant => (h.granted.within grant hgrant).scratch_le

/-! ### Tensors are apart -/

/-- Two tensors are apart unless both are activations that are never alive together. -/
theorem Fits.stored_apart (h : a.Fits g tables) {id id' : Nat} {t t' : Tensor}
    (hs : g.Stored id t) (hs' : g.Stored id' t') (hne : id ≠ id')
    (hover : ∀ l l', g.Planned id l → g.Planned id' l' → l.Overlaps l') {span span' : Span}
    (hspan : a.spans[id]? = some span) (hspan' : a.spans[id']? = some span') :
    span.range.Apart span'.range := by
  have varActivation : ∀ {id id' : Nat} {t : Tensor} {l : Lifetime} {span span' : Span},
      g.tensors[id]? = some t → t.kind = .var → g.Planned id' l → a.spans[id]? = some span →
      a.spans[id']? = some span' → span.range.Apart span'.range := by
    intro id id' t l span span' ht hkind hl hspan hspan'
    obtain ⟨_, heq, -, -, htook⟩ := h.span_of_var ht hkind
    cases hspan.symm.trans heq
    obtain ⟨_, heq', -, -, hlow, hhigh⟩ := h.activations.placed id' l hl
    cases hspan'.symm.trans heq'
    refine (htook.lies.apart h.activations_lies.1 (Nat.le_refl _)).mono (fun _ hx => hx) ?_
    rintro x ⟨hx, hx'⟩
    exact ⟨by omega, by omega⟩
  obtain ⟨ht, hkind | ⟨l, hl⟩⟩ := hs <;> obtain ⟨ht', hkind' | ⟨l', hl'⟩⟩ := hs'
  · obtain ⟨_, heq, hzip, -⟩ := h.span_of_var ht hkind
    cases hspan.symm.trans heq
    obtain ⟨_, heq', hzip', -⟩ := h.span_of_var ht' hkind'
    cases hspan'.symm.trans heq'
    exact rel_of_getElem?_of_pairwise (fun p q hpq hq hp => (hpq hp hq).symm) h.vars.apart hzip
      hzip' hne (Tensor.data_of_kind_var hkind).2 (Tensor.data_of_kind_var hkind').2
  · exact varActivation ht hkind hl' hspan hspan'
  · exact (varActivation ht' hkind' hl hspan' hspan).symm
  · exact h.activations.apart id id' l l' span span' hl hl' hne (hover l l' hl hl') hspan hspan'

/-! ### Persistent data -/

/-- A row finds the persistent data that its kernel was granted. -/
theorem Fits.userRange_rowOf (h : a.Fits g tables) {grant : Grant}
    (hg : a.grants[k]? = some grant) :
    (a.rowOf k grant).userRange = grant.userData.getD .empty := by
  have hmem := List.mem_of_getElem? hg
  unfold OpRow.userRange rowOf Pass.grantSpan
  cases hdata : grant.userData with
  | none => exact if_neg Span.not_isPlaced_unplaced
  | some r =>
    have htook := (h.granted.within grant hmem).userData r hdata
    have hreach := h.granted.reach grant hmem r hdata
    obtain ⟨-, hrange, -⟩ := Span.make_ok (Span.make_eq_ok hreach)
    dsimp only
    have hplaced : (Span.mk (UInt32.ofNat r.offset) (UInt32.ofNat r.length)).IsPlaced := by
      apply Span.isPlaced_of_dvd
      rw [hrange]
      exact htook.aligned
    rw [if_pos hplaced, hrange]
    rfl

/-- Where an operator finds its persistent data. -/
theorem Fits.userRange (h : a.Fits g tables) {grant : Grant} (hg : a.grants[k]? = some grant) :
    arenaAlignment ∣ (a.rowOf k grant).userRange.offset ∧
      (a.rowOf k grant).userRange.Lies a.stages.persistent a.stages.operators ∧
      (a.rowOf k grant).userRange.stop ≤ a.stages.start := by
  obtain ⟨h₁, h₂, h₃, h₄, h₅, h₆⟩ := h.falling
  rw [h.userRange_rowOf hg]
  cases hdata : grant.userData with
  | none =>
    exact ⟨Nat.dvd_zero _, fun x hx => absurd hx (ByteRange.not_covers_of_length_eq_zero rfl x),
      Nat.zero_le _⟩
  | some r =>
    have htook := (h.granted.within grant (List.mem_of_getElem? hg)).userData r hdata
    have hstop := htook.stop_le
    dsimp only at hstop
    exact ⟨htook.aligned, htook.lies, by simp only [Option.getD_some]; omega⟩

/-- The persistent data of different operators are apart. -/
theorem Fits.userRange_apart (h : a.Fits g tables) {k' : Nat} {grant grant' : Grant}
    (hg : a.grants[k]? = some grant) (hg' : a.grants[k']? = some grant') (hne : k ≠ k') :
    (a.rowOf k grant).userRange.Apart (a.rowOf k' grant').userRange := by
  rw [h.userRange_rowOf hg, h.userRange_rowOf hg']
  have hrel := rel_of_getElem?_of_pairwise
    (fun p q hpq r r' hr hr' => (hpq r' r hr' hr).symm) h.granted.apart hg hg' hne
  cases hdata : grant.userData with
  | none => exact fun x hx => absurd hx (ByteRange.not_covers_of_length_eq_zero rfl x)
  | some r =>
    cases hdata' : grant'.userData with
    | none => exact fun x _ hx => ByteRange.not_covers_of_length_eq_zero rfl x hx
    | some r' => exact hrel r r' hdata hdata'

end Allotment

end TensorArena
