import Mathlib.Algebra.Group.Nat.Defs
import Mathlib.Data.List.Nodup
import TensorArena.Proofs.Graph.Checked
import TensorArena.Proofs.Tensor.Counts

/-!
# Which graphs are accepted

`Graph.Valid` lists the rules of a graph without the walk over the operators and without the order
in which the rules are checked: each rule speaks about the graph as a whole. The check accepts exactly
the valid graphs. That accepted graphs are valid follows from what is known of checked graphs; that
valid graphs are accepted is shown check by check, each from the rules that it needs.
-/

namespace TensorArena

theorem checkAll_of_forall {check : α → Except ε Unit} {l : List α} (h : ∀ a ∈ l, check a = .ok ()) :
    checkAll check l = .ok () := by
  induction l with
  | nil => rfl
  | cons a rest ih =>
    obtain ⟨ha, hrest⟩ := List.forall_mem_cons.mp h
    rw [checkAll, ha]
    exact ih hrest

/-! ## Tensors -/

/-- The rules of a single tensor: it can be addressed, and constant data have exactly its bytes. -/
structure Tensor.Valid (t : Tensor) : Prop where
  sized : ∃ bytes, t.shape.bytes? t.dtype = some bytes ∧ bytes ≤ Word.maxSigned
  constant : ∀ data, t.data = some data →
    t.shape.bytes? t.dtype = some data.length ∧ t.isVariable = false

theorem Tensor.check_eq_ok_iff {t : Tensor} : t.check = .ok () ↔ t.Valid := by
  constructor
  · intro h
    have hconstant := fun data (hd : t.data = some data) =>
      Graph.constant_of_check h (by rw [hd]; rfl)
    unfold check at h
    split at h
    · cases h
    · rename_i bytes hbytes
      split at h
      · cases h
      · rename_i hfits
        refine ⟨⟨bytes, hbytes, Nat.le_of_not_lt hfits⟩, fun data hd => ⟨?_, hconstant data hd⟩⟩
        rw [hd, hconstant data hd] at h
        simp only [Bool.false_eq_true, if_false] at h
        split at h
        · cases h
        · rename_i hlength
          rw [hbytes, Decidable.not_not.mp hlength]
  · rintro ⟨⟨bytes, hbytes, hfits⟩, hconstant⟩
    unfold check
    rw [hbytes]
    dsimp only
    rw [if_neg (Nat.not_lt_of_le hfits)]
    split
    · rfl
    · rename_i data hd
      obtain ⟨hlength, hvariable⟩ := hconstant data hd
      obtain rfl : data.length = bytes := Option.some.inj (hlength.symm.trans hbytes)
      simp [hvariable]

theorem Tensor.Valid.size_eq {t : Tensor} (h : t.Valid) : t.size = t.shape.elements * t.dtype.size := by
  obtain ⟨bytes, hbytes, -⟩ := h.sized
  obtain ⟨n, hn, hmul⟩ := Option.bind_eq_some_iff.mp hbytes
  rw [Tensor.size, Shape.bytes, hbytes, Shape.elements, hn, Option.getD_some, Option.getD_some,
    (Word.mul?_eq_some_iff.mp hmul).1]

theorem Tensor.Valid.size_eq_prod {t : Tensor} (h : t.Valid) :
    t.size = t.shape.dims.prod * t.dtype.size := by
  obtain ⟨bytes, hbytes, -⟩ := h.sized
  obtain ⟨n, hn, -⟩ := Option.bind_eq_some_iff.mp hbytes
  rw [h.size_eq, Shape.elements, hn, Option.getD_some, (Shape.elements?_eq_some_iff.mp hn).1]

theorem Tensor.Valid.elements_eq {t : Tensor} (h : t.Valid) : t.shape.elements = t.shape.dims.prod :=
  Nat.eq_of_mul_eq_mul_right t.dtype.size_pos (h.size_eq.symm.trans h.size_eq_prod)

namespace Graph

/-! ## The rules -/

/-- Whether a tensor number exists and stands for a tensor of some kind. -/
def HasKind (g : Graph) (id : Nat) (kind : TensorKind) : Prop :=
  ∃ t, g.tensors[id]? = some t ∧ t.kind = kind

/-- Whether some operator before number `k` writes a tensor. -/
def WrittenBefore (g : Graph) (k id : Nat) : Prop :=
  ∃ j < k, ∃ op, g.operators[j]? = some op ∧ id ∈ op.outputIds

/-- The rules of a graph. -/
structure Valid (g : Graph) : Prop where
  tensor : ∀ t ∈ g.tensors, t.Valid
  listed_lt : ∀ id ∈ g.inputs ++ g.outputs, id < g.tensors.length
  operand_lt : ∀ op ∈ g.operators, ∀ id ∈ op.operandIds, id < g.tensors.length
  input : ∀ id ∈ g.inputs, g.HasKind id .activation
  /-- An activation is read only after it was given a value. -/
  read : ∀ k op, g.operators[k]? = some op → ∀ id ∈ op.inputIds, g.HasKind id .activation →
    id ∈ g.inputs ∨ g.WrittenBefore k id
  write : ∀ op ∈ g.operators, ∀ id ∈ op.outputIds, g.HasKind id .activation ∧ id ∉ g.inputs
  /-- Over all operators and all their outputs, no tensor is listed twice. -/
  written_once : (g.operators.flatMap Operator.outputIds).Nodup
  read_or_written : ∀ op ∈ g.operators, ∀ id ∈ op.inputIds, id ∉ op.outputIds
  variable_once : ∀ op ∈ g.operators, ∀ id, g.HasKind id .var → op.inputIds.count id ≤ 1
  output : ∀ id ∈ g.outputs, g.HasKind id .activation →
    id ∈ g.inputs ∨ g.WrittenBefore g.operators.length id

variable {g : Graph}

theorem mem_writtenBefore {k id : Nat} : id ∈ g.writtenBefore k ↔ g.WrittenBefore k id := by
  rw [writtenBefore, List.mem_flatMap]
  constructor
  · rintro ⟨op, hop, hid⟩
    obtain ⟨j, hj⟩ := List.mem_iff_getElem?.mp hop
    rw [List.getElem?_take] at hj
    split at hj
    · rename_i hlt
      exact ⟨j, hlt, op, hj, hid⟩
    · cases hj
  · rintro ⟨j, hlt, op, hj, hid⟩
    exact ⟨op, List.mem_iff_getElem?.mpr ⟨j, by rw [List.getElem?_take, if_pos hlt, hj]⟩, hid⟩

/-- No tensor is listed twice among all outputs when no operator lists one twice and none lists one
that an earlier operator wrote. -/
theorem nodup_outputs_iff : (g.operators.flatMap Operator.outputIds).Nodup ↔
    (∀ op ∈ g.operators, op.outputIds.Nodup) ∧
      ∀ k op, g.operators[k]? = some op → ∀ id ∈ op.outputIds, ¬ g.WrittenBefore k id := by
  rw [List.nodup_flatMap, List.pairwise_iff_getElem]
  refine and_congr_right fun _ => ⟨?_, ?_⟩
  · rintro hapart k op hk id hid ⟨j, hlt, op', hj, hid'⟩
    obtain ⟨hklt, rfl⟩ := List.getElem?_eq_some_iff.mp hk
    obtain ⟨hjlt, rfl⟩ := List.getElem?_eq_some_iff.mp hj
    exact hapart j k hjlt hklt hlt hid' hid
  · intro hfresh j k hj hk hlt id hid hid'
    exact hfresh k _ (List.getElem?_eq_getElem hk) id hid'
      ⟨j, hlt, _, List.getElem?_eq_getElem hj, hid⟩

/-- A list mentions a number at most once when two of its entries are that number only if something
else holds of it. -/
theorem pairwise_not_iff_count_le_one {l : List Nat} {p : Nat → Prop} :
    (l.Pairwise fun a b => a = b → ¬ p a) ↔ ∀ a, p a → l.count a ≤ 1 := by
  rw [List.pairwise_iff_forall_sublist]
  have twice : ∀ a, (List.replicate 2 a).Sublist l ↔ 2 ≤ l.count a := fun _ =>
    List.replicate_sublist_iff
  constructor
  · intro hpairs a ha
    by_contra hmany
    exact hpairs ((twice a).mpr (by omega)) rfl ha
  · rintro hcount a _ hsub rfl ha
    have := (twice a).mp hsub
    have := hcount a ha
    omega

/-! ## Accepted graphs are valid -/

theorem valid_of_check (h : g.check = .ok ()) : g.Valid := by
  have rules := checked_of_check h
  obtain ⟨_, htensors, _⟩ := bind_ok h
  refine
    { tensor := fun t ht => Tensor.check_eq_ok_iff.mp (checkAll_ok htensors t ht)
      listed_lt := fun id hid => ?_
      operand_lt := rules.operand_lt
      input := rules.input
      read := ?_
      write := fun op hop id hid => ?_
      written_once := ?_
      read_or_written := fun op hop id hin hout => ?_
      variable_once := fun op hop => ?_
      output := ?_ }
  · rcases List.mem_append.mp hid with hid | hid
    · obtain ⟨t, ht, -⟩ := rules.input id hid
      exact (List.getElem?_eq_some_iff.mp ht).1
    · exact rules.output_lt id hid
  · rintro k op hk id hid ⟨t, ht, hkind⟩
    exact (rules.read k op hk id hid t ht hkind).imp_right mem_writtenBefore.mp
  · obtain ⟨k, hk⟩ := List.mem_iff_getElem?.mp hop
    obtain ⟨hkind, hin, -, -⟩ := rules.write k op hk id hid
    exact ⟨hkind, hin⟩
  · refine nodup_outputs_iff.mpr ⟨rules.written_once, fun k op hk id hid hwritten => ?_⟩
    exact (rules.write k op hk id hid).2.2.1 (mem_writtenBefore.mpr hwritten)
  · obtain ⟨k, hk⟩ := List.mem_iff_getElem?.mp hop
    exact (rules.write k op hk id hout).2.2.2 hin
  · refine pairwise_not_iff_count_le_one.mp ((rules.repeated op hop).imp ?_)
    rintro a b hpair rfl ⟨t, ht, hkind⟩
    exact hpair rfl t ht hkind
  · rintro id hid ⟨t, ht, hkind⟩
    exact (rules.output id hid t ht hkind).imp_right mem_writtenBefore.mp

/-! ## Valid graphs are accepted -/

theorem checkReads_of {op : Operator} {written ids : List Nat}
    (hknown : ∀ id ∈ ids, id < g.tensors.length)
    (hread : ∀ id ∈ ids, g.HasKind id .activation → id ∈ g.inputs ∨ id ∈ written)
    (hpairs : ids.Pairwise fun a b => a = b → ¬ g.HasKind a .var) :
    g.checkReads op written ids = .ok () := by
  induction ids with
  | nil => rfl
  | cons id rest ih =>
    obtain ⟨hlt, hknown⟩ := List.forall_mem_cons.mp hknown
    obtain ⟨hvalue, hread⟩ := List.forall_mem_cons.mp hread
    obtain ⟨honce, hpairs⟩ := List.pairwise_cons.mp hpairs
    have ht := List.getElem?_eq_getElem hlt
    rw [checkReads, ht]
    dsimp only
    split
    · rename_i hunwritten
      obtain ⟨hkind, hin, hout⟩ := hunwritten
      exact absurd (hvalue ⟨_, ht, hkind⟩) (not_or.mpr ⟨hin, hout⟩)
    · split
      · rename_i hrepeated
        exact absurd ⟨_, ht, hrepeated.1⟩ (honce id hrepeated.2 rfl)
      · exact ih hknown hread hpairs

theorem checkWrites_of {op : Operator} {written ids : List Nat}
    (hwrite : ∀ id ∈ ids, g.HasKind id .activation ∧ id ∉ g.inputs ∧ id ∉ written ∧
      id ∉ op.inputIds) (hnodup : ids.Nodup) : g.checkWrites op written ids = .ok () := by
  induction ids with
  | nil => rfl
  | cons id rest ih =>
    obtain ⟨⟨⟨t, ht, hkind⟩, hin, hwritten, hread⟩, hrest⟩ := List.forall_mem_cons.mp hwrite
    obtain ⟨honce, hnodup⟩ := List.nodup_cons.mp hnodup
    rw [checkWrites, ht]
    dsimp only
    rw [if_neg (not_not_intro hkind), if_neg hin, if_neg (not_or.mpr ⟨hwritten, honce⟩),
      if_neg hread]
    exact ih hrest hnodup

/-- The walk succeeds when every operator passes with the tensors written before it. -/
theorem checkOperators_of {written : List Nat} {ops : List Operator}
    (h : ∀ k op, ops[k]? = some op →
      g.checkOperator (written ++ (ops.take k).flatMap Operator.outputIds) op = .ok ()) :
    g.checkOperators written ops = .ok (written ++ ops.flatMap Operator.outputIds) := by
  induction ops generalizing written with
  | nil => rw [checkOperators, List.flatMap_nil, List.append_nil]
  | cons first rest ih =>
    have hfirst := h 0 first rfl
    rw [List.take_zero, List.flatMap_nil, List.append_nil] at hfirst
    rw [checkOperators, hfirst]
    dsimp only
    rw [ih fun k op hk => ?_, List.append_assoc, List.flatMap_cons]
    have := h (k + 1) op hk
    rwa [List.take_succ_cons, List.flatMap_cons, ← List.append_assoc] at this

theorem Valid.checkOperator (h : g.Valid) {k : Nat} {op : Operator}
    (hk : g.operators[k]? = some op) : g.checkOperator (g.writtenBefore k) op = .ok () := by
  have hop := List.mem_of_getElem? hk
  have hoperand := h.operand_lt op hop
  obtain ⟨honce, hfresh⟩ := nodup_outputs_iff.mp h.written_once
  have hreads : g.checkReads op (g.writtenBefore k) op.inputIds = .ok () := by
    refine checkReads_of (fun id hid => hoperand id (List.mem_append_left _ hid))
      (fun id hid hkind => (h.read k op hk id hid hkind).imp_right mem_writtenBefore.mpr) ?_
    exact pairwise_not_iff_count_le_one.mpr (h.variable_once op hop)
  have hwrites : g.checkWrites op (g.writtenBefore k) op.outputIds = .ok () := by
    refine checkWrites_of (fun id hid => ?_) (honce op hop)
    obtain ⟨hkind, hin⟩ := h.write op hop id hid
    exact ⟨hkind, hin, fun hwritten => hfresh k op hk id hid (mem_writtenBefore.mp hwritten),
      fun hread => h.read_or_written op hop id hread hid⟩
  have hoperands : checkAll (g.checkOperand op) op.operandIds = .ok () :=
    checkAll_of_forall fun id hid => if_pos (hoperand id hid)
  rw [Graph.checkOperator, hoperands, hreads, hwrites]
  rfl

theorem Valid.check (h : g.Valid) : g.check = .ok () := by
  have htensors : checkAll Tensor.check g.tensors = .ok () :=
    checkAll_of_forall fun t ht => Tensor.check_eq_ok_iff.mpr (h.tensor t ht)
  have hlisted : checkAll g.checkListed (g.inputs ++ g.outputs) = .ok () :=
    checkAll_of_forall fun id hid => if_pos (h.listed_lt id hid)
  have hinputs : checkAll g.checkInput g.inputs = .ok () := by
    refine checkAll_of_forall fun id hid => ?_
    obtain ⟨t, ht, hkind⟩ := h.input id hid
    rw [checkInput, ht]
    exact if_pos hkind
  have hops : g.checkOperators [] g.operators =
      .ok (g.writtenBefore g.operators.length) := by
    rw [writtenBefore, List.take_length]
    exact checkOperators_of fun k op hk => h.checkOperator hk
  have houtputs : checkAll (g.checkOutput (g.writtenBefore g.operators.length)) g.outputs =
      .ok () := by
    refine checkAll_of_forall fun id hid => ?_
    have hlt := h.listed_lt id (List.mem_append_right _ hid)
    have ht := List.getElem?_eq_getElem hlt
    rw [checkOutput, ht]
    refine if_neg ?_
    rintro ⟨hkind, hin, hwritten⟩
    rcases h.output id hid ⟨_, ht, hkind⟩ with hin' | hwritten'
    · exact hin hin'
    · exact hwritten (mem_writtenBefore.mpr hwritten')
  rw [Graph.check, htensors, hlisted, hinputs, hops]
  exact houtputs

/-- Exactly the valid graphs are accepted, and the accepted graph is the same graph. -/
theorem validate_eq_ok_iff (g : Graph) :
    ((∃ c, g.validate = .ok c) ↔ g.Valid) ∧ ∀ c, g.validate = .ok c → c.toGraph = g := by
  unfold validate
  split
  · rename_i h
    refine ⟨iff_of_true ⟨_, rfl⟩ (valid_of_check h), fun c hc => ?_⟩
    cases hc
    rfl
  · rename_i e h
    refine ⟨iff_of_false nofun fun hvalid => ?_, nofun⟩
    rw [hvalid.check] at h
    cases h

end Graph

end TensorArena
