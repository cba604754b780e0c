import TensorArena.Interpreter.Binding
import TensorArena.Proofs.Graph.Checked
import TensorArena.Proofs.Memory.Pieces

/-!
# What is bound

Binding cuts off one slice for each claim of an operator, and every operand takes the slice in its
place. `Memory.operands` does without places: every operand has what the memory holds where its source
says. `bind_eq_ok_iff` says that binding comes to the same, and when it succeeds.

An activation that is read twice has its range in one place only, and an empty one in the other. Both
inputs take the first, which is right because equal operands have equal sources.
-/

namespace TensorArena

theorem eq_map_of_mapM_ok {f : α → Except ε β} {l : List α} {r : List β} (d : β)
    (h : l.mapM f = .ok r) : r = l.map fun a => ((f a).toOption).getD d := by
  induction l generalizing r with
  | nil =>
    cases h
    rfl
  | cons a rest ih =>
    rw [List.mapM_cons] at h
    obtain ⟨b, hb, h⟩ := bind_ok h
    obtain ⟨bs, hbs, h⟩ := bind_ok h
    cases h
    rw [List.map_cons, hb, ← ih hbs]
    rfl

namespace Memory

/-- An input with what the memory has for it. -/
def input (m : Memory) (src : Source) : Input :=
  src.input (m.slice src.range) (m.slice src.range)

theorem input_placed (m : Memory) (t : Tensor) (r : ByteRange) : m.input (.placed t r) =
    if t.isVariable then .var t (m.slice r) else .shared t (m.slice r) :=
  rfl

/-- An output with what the memory has for it. -/
def output (m : Memory) (src : Source) : Option (Tensor × Slice) :=
  src.output (m.slice src.range)

/-- The operands that the sources provide. -/
def operands (m : Memory) (op : Operator) (row : OpRow) (context : Option Int) (b : Sources) :
    Operands where
  operator := op
  inputs := b.inputs.map m.input
  outputs := b.outputs.map m.output
  scratch := b.scratch.map m.slice
  userData := m.slice row.userRange
  context := context

end Memory

theorem OpRow.lastRange_eq {row : OpRow} {scratch : List ByteRange}
    (h : scratch.length ≤ maxScratch) : row.lastRange scratch = row.userRange := by
  unfold lastRange
  split
  · rfl
  · rename_i hplaced
    rw [List.getElem?_eq_none h, userRange, if_neg hplaced]
    rfl

/-! ## Places -/

@[simp]
theorem length_inputRanges (earlier : List (Option Nat)) (l : List (Option Nat × Source)) :
    (inputRanges earlier l).length = l.length := by
  induction l generalizing earlier with
  | nil => rfl
  | cons p rest ih => rw [inputRanges, List.length_cons, List.length_cons, ih]

/-- A variable has its range in its own place. -/
theorem getElem?_inputRanges_var {t : Tensor} (hv : t.isVariable = true) {r : ByteRange}
    {o : Option Nat} {l : List (Option Nat × Source)} {i : Nat} (h : l[i]? = some (o, .placed t r))
    (earlier : List (Option Nat)) : (inputRanges earlier l)[i]? = some r := by
  induction l generalizing earlier i with
  | nil => cases h
  | cons p rest ih =>
    rw [inputRanges]
    cases i with
    | zero =>
      cases h
      exact congrArg some (if_neg fun hc => hc.1 hv)
    | succ i => exact ih h _

/-- An operand has its range in the place of the first input that names it. -/
theorem getElem?_inputRanges_idxOf {src : Option Nat → Source} {o : Option Nat}
    {operands earlier : List (Option Nat)} (ho : o ∈ operands) (hnew : o ∉ earlier) :
    (inputRanges earlier (operands.map fun o => (o, src o)))[operands.idxOf o]? =
      some (src o).range := by
  induction operands generalizing earlier with
  | nil => cases ho
  | cons o' rest ih =>
    rw [List.map_cons, inputRanges]
    by_cases heq : o' = o
    · subst heq
      rw [List.idxOf_cons_self, List.getElem?_cons_zero]
      cases src o' with
      | absent => rfl
      | constant t d => rfl
      | placed t r => exact congrArg some (if_neg fun hc => hnew hc.2)
    · rw [List.idxOf_cons_ne _ heq, List.getElem?_cons_succ]
      refine ih ((List.mem_cons.mp ho).resolve_left fun h => heq h.symm) fun hc => ?_
      exact (List.mem_cons.mp hc).elim (fun h => heq h.symm) hnew

/-! ## Operands by place -/

namespace Sources

variable {m : Memory} {op : Operator} {row : OpRow} {b : Sources} {src : Option Nat → Source}

/-- The slice of a claim. -/
theorem getD_claims {i : Nat} {r : ByteRange} (h : (b.claims op row)[i]? = some r) :
    ((b.claims op row).map m.slice).getD i .empty = m.slice r := by
  rw [List.getD_eq_getElem?_getD, List.getElem?_map, h]
  rfl

theorem claims_eq (hinputs : b.inputs = op.inputs.map src) (hscratch : b.scratch.length ≤ maxScratch) :
    b.claims op row = inputRanges [] (op.inputs.map fun o => (o, src o)) ++
      (b.outputs.map Source.range ++ (b.scratch ++ [row.userRange])) := by
  rw [claims, hinputs, ← List.map_prod_left_eq_zip, OpRow.lastRange_eq hscratch,
    List.take_of_length_le hscratch, List.append_assoc, List.append_assoc]

theorem input_claims (hinputs : b.inputs = op.inputs.map src)
    (hscratch : b.scratch.length ≤ maxScratch) {i : Nat} {o : Option Nat}
    (ho : op.inputs[i]? = some o) :
    (src o).input (((b.claims op row).map m.slice).getD i .empty)
      (((b.claims op row).map m.slice).getD (op.inputs.idxOf o) .empty) = m.input (src o) := by
  have hmem : o ∈ op.inputs := List.mem_of_getElem? ho
  have place {j : Nat} {r : ByteRange}
      (h : (inputRanges [] (op.inputs.map fun o => (o, src o)))[j]? = some r) :
      ((b.claims op row).map m.slice).getD j .empty = m.slice r := by
    refine getD_claims ?_
    rw [claims_eq hinputs hscratch, List.getElem?_append_left (List.getElem?_eq_some_iff.mp h).1, h]
  cases hsrc : src o with
  | absent => rfl
  | constant t d => rfl
  | placed t r =>
    have hfirst := place (getElem?_inputRanges_idxOf hmem List.not_mem_nil)
    rw [hsrc] at hfirst
    unfold Memory.input Source.input
    by_cases hv : t.isVariable = true
    · have hown := getElem?_inputRanges_var (l := op.inputs.map fun o => (o, src o)) (i := i) hv
        (by rw [List.getElem?_map, ho, Option.map_some, hsrc]) []
      simp only [if_pos hv, place hown, Source.range]
    · simp only [if_neg hv, hfirst]

theorem output_claims (hinputs : b.inputs = op.inputs.map src)
    (hscratch : b.scratch.length ≤ maxScratch) {i : Nat} {out : Source}
    (hout : b.outputs[i]? = some out) :
    out.output (((b.claims op row).map m.slice).getD (op.inputs.length + i) .empty) =
      m.output out := by
  refine congrArg out.output (getD_claims ?_)
  have hlen : (inputRanges [] (op.inputs.map fun o => (o, src o))).length = op.inputs.length := by
    simp
  rw [claims_eq hinputs hscratch, ← hlen, List.getElem?_append_right (Nat.le_add_right ..),
    Nat.add_sub_cancel_left, List.getElem?_append_left, List.getElem?_map, hout]
  · rfl
  · rw [List.length_map]
    exact (List.getElem?_eq_some_iff.mp hout).1

/-- Operands that take the slices of their claims by place have what the memory holds for them. -/
theorem operands_claims (hinputs : b.inputs = op.inputs.map src)
    (hscratch : b.scratch.length ≤ maxScratch) (context : Option Int) :
    b.operands op context ((b.claims op row).map m.slice) = m.operands op row context b := by
  simp only [operands, Memory.operands, Operands.mk.injEq, true_and, and_true]
  refine ⟨?inputs, ?outputs, ?scratch, ?userData⟩
  case inputs =>
    rw [hinputs, ← List.map_prod_left_eq_zip, List.map_map]
    refine List.ext_getElem? fun i => ?_
    rw [List.getElem?_mapIdx, List.getElem?_map, List.getElem?_map, Option.map_map]
    exact Option.map_congr fun o ho => input_claims hinputs hscratch ho
  case outputs =>
    refine List.ext_getElem? fun i => ?_
    rw [List.getElem?_mapIdx, List.getElem?_map]
    exact Option.map_congr fun out hout => output_claims hinputs hscratch hout
  case scratch =>
    have hlen : (inputRanges [] (op.inputs.map fun o => (o, src o)) ++
        b.outputs.map Source.range).length = op.inputs.length + b.outputs.length := by
      simp
    rw [claims_eq hinputs hscratch, ← List.append_assoc, ← hlen, ← List.map_drop, List.drop_left,
      ← List.map_take, List.take_left]
  case userData =>
    rw [claims_eq hinputs hscratch, ← List.append_assoc, ← List.append_assoc, List.map_append]
    simp

end Sources

/-! ## Binding -/

namespace Memory

variable {m : Memory} {g : Graph} {op : Operator} {tables : Tables} {row : OpRow}
  {context : Option Int}

theorem inputs_of_sources {b : Sources} (h : m.sources g op tables row = .ok b) :
    ∃ src, b.inputs = op.inputs.map src := by
  obtain ⟨inputs, hinputs, h⟩ := bind_ok h
  obtain ⟨outputs, -, h⟩ := bind_ok h
  obtain ⟨scratch, -, h⟩ := bind_ok h
  cases h
  exact ⟨_, eq_map_of_mapM_ok .absent hinputs⟩

/-- Binding succeeds when the tables can be read, the claims are few enough, in bounds and apart, and
there are places for all scratch blocks. -/
theorem bind_eq_ok_iff {o : Operands} :
    m.bind g op tables row context = .ok o ↔
      ∃ b, m.sources g op tables row = .ok b ∧ (b.claims op row).length ≤ maxPieces ∧
        (∀ r ∈ b.claims op row, r.stop ≤ m.size) ∧
        (b.claims op row).Pairwise ByteRange.Apart ∧ b.scratch.length ≤ maxScratch ∧
        m.operands op row context b = o := by
  constructor
  · intro h
    obtain ⟨b, hb, h⟩ := bind_ok h
    obtain ⟨slices, hslices, h⟩ := bind_ok h
    obtain ⟨src, hinputs⟩ := inputs_of_sources hb
    cases hsplit : m.split (b.claims op row).length (b.claims op row) with
    | error e =>
      rw [hsplit] at hslices
      cases hslices
    | ok cut =>
      rw [hsplit] at hslices
      cases hslices
      obtain ⟨⟨⟨hfew, -⟩, hstop, hapart⟩, rfl⟩ := split_eq_ok_iff.mp hsplit
      split at h
      · cases h
      · rename_i hscratch
        cases h
        have hscratch := Nat.le_of_not_lt hscratch
        exact ⟨b, hb, hfew, hstop, hapart, hscratch,
          (Sources.operands_claims hinputs hscratch context).symm⟩
  · rintro ⟨b, hb, hfew, hstop, hapart, hscratch, rfl⟩
    obtain ⟨src, hinputs⟩ := inputs_of_sources hb
    have hsplit := split_eq_ok_iff.mpr ⟨⟨⟨hfew, Nat.le_refl _⟩, hstop, hapart⟩, rfl⟩
    unfold bind
    rw [hb]
    show (do let slices ← (m.split _ _).mapError _; _) = _
    rw [hsplit, ← Sources.operands_claims hinputs hscratch context]
    exact if_neg (Nat.not_lt_of_le hscratch)

end Memory

end TensorArena
