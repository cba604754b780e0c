import TensorArena.Graph.Check

/-!
# What the check of a graph guarantees

The check walks the operators with the list of tensors written so far. `Graph.Checked` states its
rules without the walk: which tensors exist, who may read and write them, and in which order.
-/

namespace TensorArena

theorem checkAll_ok {check : α → Except ε Unit} {l : List α} (h : checkAll check l = .ok ()) :
    ∀ a ∈ l, check a = .ok () := by
  induction l with
  | nil => nofun
  | cons a rest ih =>
    unfold checkAll at h
    split at h
    · rename_i ha
      intro b hb
      rcases List.mem_cons.mp hb with rfl | hb
      · exact ha
      · exact ih h b hb
    · cases h

/-! ## Kinds -/

namespace Tensor

theorem data_of_kind_activation {t : Tensor} (h : t.kind = .activation) :
    t.data = none ∧ t.isVariable = false := by
  unfold kind at h
  split at h
  · cases h
  · split at h
    · cases h
    · rename_i hd hv
      exact ⟨by simpa using hd, by simpa using hv⟩

theorem data_of_kind_var {t : Tensor} (h : t.kind = .var) :
    t.data = none ∧ t.isVariable = true := by
  unfold kind at h
  split at h
  · cases h
  · split at h
    · rename_i hd hv
      exact ⟨by simpa using hd, hv⟩
    · cases h

theorem kind_eq_var {t : Tensor} (hd : t.data = none) (hv : t.isVariable = true) :
    t.kind = .var := by
  unfold kind
  rw [hd, hv]
  rfl

/-- Data decide before the variable mark. -/
theorem kind_ne_var {t : Tensor} {data : Packed} (hd : t.data = some data) : t.kind ≠ .var := by
  intro hkind
  rw [(data_of_kind_var hkind).1] at hd
  cases hd

theorem kind_eq_var_iff {t : Tensor} (hd : t.data = none) :
    t.kind = .var ↔ t.isVariable = true :=
  ⟨fun h => (data_of_kind_var h).2, kind_eq_var hd⟩

theorem data_of_kind_constant {t : Tensor} (h : t.kind = .constant) : ∃ d, t.data = some d := by
  unfold kind at h
  split at h
  · rename_i hd
    exact Option.isSome_iff_exists.mp hd
  · split at h
    · cases h
    · cases h

end Tensor

/-- A check that ran before another one and passed. -/
theorem bind_ok {x : Except ε α} {f : α → Except ε β} {b : β} (h : (x >>= f) = .ok b) :
    ∃ a, x = .ok a ∧ f a = .ok b := by
  cases x with
  | ok a => exact ⟨a, rfl, h⟩
  | error e => cases h

namespace Graph

/-- The tensors that the operators before number `k` write. -/
def writtenBefore (g : Graph) (k : Nat) : List Nat :=
  (g.operators.take k).flatMap Operator.outputIds

/-- The rules that a checked graph keeps. -/
structure Checked (g : Graph) : Prop where
  constant : ∀ t ∈ g.tensors, t.data.isSome → t.isVariable = false
  input : ∀ id ∈ g.inputs, ∃ t, g.tensors[id]? = some t ∧ t.kind = .activation
  output_lt : ∀ id ∈ g.outputs, id < g.tensors.length
  operand_lt : ∀ op ∈ g.operators, ∀ id ∈ op.operandIds, id < g.tensors.length
  /-- An activation is read only after it was given a value. -/
  read : ∀ k op, g.operators[k]? = some op → ∀ id ∈ op.inputIds, ∀ t,
    g.tensors[id]? = some t → t.kind = .activation → id ∈ g.inputs ∨ id ∈ g.writtenBefore k
  repeated : ∀ op ∈ g.operators, op.inputIds.Pairwise fun id id' =>
    id = id' → ∀ t, g.tensors[id]? = some t → t.kind ≠ .var
  write : ∀ k op, g.operators[k]? = some op → ∀ id ∈ op.outputIds,
    (∃ t, g.tensors[id]? = some t ∧ t.kind = .activation) ∧ id ∉ g.inputs ∧
      id ∉ g.writtenBefore k ∧ id ∉ op.inputIds
  written_once : ∀ op ∈ g.operators, op.outputIds.Nodup
  output : ∀ id ∈ g.outputs, ∀ t, g.tensors[id]? = some t → t.kind = .activation →
    id ∈ g.inputs ∨ id ∈ g.writtenBefore g.operators.length

variable {g : Graph}

theorem Checked.exists_operand (h : g.Checked) {op : Operator} (hop : op ∈ g.operators) {id : Nat}
    (hid : id ∈ op.operandIds) : ∃ t, g.tensors[id]? = some t :=
  ⟨_, List.getElem?_eq_getElem (h.operand_lt op hop id hid)⟩

/-! ## The walk -/

theorem checkReads_ok {op : Operator} {written ids : List Nat}
    (h : checkReads g op written ids = .ok ()) :
    (∀ id ∈ ids, ∀ t, g.tensors[id]? = some t → t.kind = .activation →
      id ∈ g.inputs ∨ id ∈ written) ∧
    ids.Pairwise fun id id' => id = id' → ∀ t, g.tensors[id]? = some t → t.kind ≠ .var := by
  induction ids with
  | nil => exact ⟨nofun, .nil⟩
  | cons id rest ih =>
    unfold checkReads at h
    split at h
    · cases h
    · rename_i t ht
      split at h
      · cases h
      · rename_i hread
        split at h
        · cases h
        · rename_i hrepeat
          obtain ⟨hreads, hpairs⟩ := ih h
          refine ⟨fun id' hid t' ht' hk => ?_, List.pairwise_cons.mpr ⟨?_, hpairs⟩⟩
          · rcases List.mem_cons.mp hid with rfl | hid
            · obtain rfl : t = t' := Option.some.inj (ht.symm.trans ht')
              by_cases hin : id' ∈ g.inputs
              · exact .inl hin
              · exact .inr (Decidable.not_not.mp fun hw => hread ⟨hk, hin, hw⟩)
            · exact hreads id' hid t' ht' hk
          · rintro id' hid rfl t' ht' hk
            obtain rfl : t = t' := Option.some.inj (ht.symm.trans ht')
            exact hrepeat ⟨hk, hid⟩

theorem checkWrites_ok {op : Operator} {written ids : List Nat}
    (h : checkWrites g op written ids = .ok ()) :
    (∀ id ∈ ids, (∃ t, g.tensors[id]? = some t ∧ t.kind = .activation) ∧ id ∉ g.inputs ∧
      id ∉ written ∧ id ∉ op.inputIds) ∧ ids.Nodup := by
  induction ids with
  | nil => exact ⟨nofun, .nil⟩
  | cons id rest ih =>
    unfold checkWrites at h
    split at h
    · cases h
    · rename_i t ht
      split at h
      · cases h
      · rename_i hkind
        split at h
        · cases h
        · rename_i hin
          split at h
          · cases h
          · rename_i htwice
            split at h
            · cases h
            · rename_i hread
              obtain ⟨hwrites, hnodup⟩ := ih h
              refine ⟨fun id' hid => ?_, List.nodup_cons.mpr ⟨fun hm => htwice (.inr hm), hnodup⟩⟩
              rcases List.mem_cons.mp hid with rfl | hid
              · exact ⟨⟨t, ht, Decidable.not_not.mp hkind⟩, hin, fun hw => htwice (.inl hw), hread⟩
              · exact hwrites id' hid

/-- The walk hands every operator the tensors written before it. -/
theorem checkOperators_ok {written final : List Nat} {ops : List Operator}
    (h : checkOperators g written ops = .ok final) :
    final = written ++ ops.flatMap Operator.outputIds ∧
      ∀ k op, ops[k]? = some op →
        g.checkOperator (written ++ (ops.take k).flatMap Operator.outputIds) op = .ok () := by
  induction ops generalizing written with
  | nil =>
    cases h
    exact ⟨by simp, nofun⟩
  | cons first rest ih =>
    unfold checkOperators at h
    split at h
    · rename_i hfirst
      obtain ⟨hfinal, hrest⟩ := ih h
      refine ⟨by rw [hfinal, List.flatMap_cons, List.append_assoc], fun k op hk => ?_⟩
      cases k with
      | zero =>
        obtain rfl : first = op := by simpa using hk
        simpa using hfirst
      | succ k =>
        have := hrest k op (by simpa using hk)
        rwa [List.append_assoc] at this
    · cases h

theorem checkOperator_ok {op : Operator} {written : List Nat}
    (h : g.checkOperator written op = .ok ()) :
    checkAll (g.checkOperand op) op.operandIds = .ok () ∧
      checkReads g op written op.inputIds = .ok () ∧
      checkWrites g op written op.outputIds = .ok () := by
  obtain ⟨_, h₁, h⟩ := bind_ok h
  obtain ⟨_, h₂, h₃⟩ := bind_ok h
  exact ⟨h₁, h₂, h₃⟩

theorem constant_of_check {t : Tensor} (h : t.check = .ok ()) (hd : t.data.isSome) :
    t.isVariable = false := by
  unfold Tensor.check at h
  split at h
  · cases h
  · split at h
    · cases h
    · split at h
      · rename_i hnone
        rw [hnone] at hd
        cases hd
      · split at h
        · cases h
        · rename_i hvar
          simpa using hvar

/-- A graph that passes the check keeps the rules. -/
theorem checked_of_check (h : g.check = .ok ()) : g.Checked := by
  obtain ⟨_, htensors, h⟩ := bind_ok h
  obtain ⟨_, hlisted, h⟩ := bind_ok h
  obtain ⟨_, hinputs, h⟩ := bind_ok h
  obtain ⟨written, hops, houtputs⟩ := bind_ok h
  obtain ⟨rfl, hop⟩ := checkOperators_ok hops
  have walk : ∀ k op, g.operators[k]? = some op → _ := fun k op hk => checkOperator_ok (hop k op hk)
  have index : ∀ op ∈ g.operators, ∃ k, g.operators[k]? = some op := fun op hm =>
    List.mem_iff_getElem?.mp hm
  -- One rule for each check, in the order of the checks.
  refine
    { constant := fun t ht => constant_of_check (checkAll_ok htensors t ht)
      input := fun id hid => ?_
      output_lt := fun id hid => ?_
      operand_lt := fun op hm id hid => ?_
      read := fun k op hk => (checkReads_ok (walk k op hk).2.1).1
      repeated := fun op hm => ?_
      write := fun k op hk => (checkWrites_ok (walk k op hk).2.2).1
      written_once := fun op hm => ?_
      output := fun id hid t ht hkind => ?_ }
  · have := checkAll_ok hinputs id hid
    unfold checkInput at this
    split at this
    · cases this
    · rename_i t ht
      split at this
      · rename_i hkind
        exact ⟨t, ht, hkind⟩
      · cases this
  · have := checkAll_ok hlisted id (List.mem_append_right _ hid)
    unfold checkListed at this
    split at this
    · assumption
    · cases this
  · obtain ⟨k, hk⟩ := index op hm
    have := checkAll_ok (walk k op hk).1 id hid
    unfold checkOperand at this
    split at this
    · assumption
    · cases this
  · obtain ⟨k, hk⟩ := index op hm
    exact (checkReads_ok (walk k op hk).2.1).2
  · obtain ⟨k, hk⟩ := index op hm
    exact (checkWrites_ok (walk k op hk).2.2).2
  · have := checkAll_ok houtputs id hid
    unfold checkOutput at this
    rw [ht] at this
    dsimp only at this
    split at this
    · cases this
    · rename_i hunwritten
      by_cases hin : id ∈ g.inputs
      · exact .inl hin
      · refine .inr (Decidable.not_not.mp fun hw => hunwritten ⟨hkind, hin, ?_⟩)
        rwa [writtenBefore, List.take_length] at hw

end Graph

theorem CheckedGraph.rules (g : CheckedGraph) : g.toGraph.Checked :=
  Graph.checked_of_check g.checked

end TensorArena
