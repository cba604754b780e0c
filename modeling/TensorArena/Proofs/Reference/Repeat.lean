import TensorArena.Proofs.Reference.Kept
import TensorArena.Proofs.Reference.Rounds
import TensorArena.Proofs.Reference.Stateless

/-!
# Running again

Inputs are written once and the graph is invoked a number of times. The outputs are those of the first
run as long as the graph keeps no state and no operator writes into a graph input: every run starts
from stores with the same inputs, so it ends in stores with the same outputs.
-/

namespace TensorArena

/-! ## Stores after a run -/

namespace Stores

variable {g : Graph} {v : Stores} {k id : Nat}

theorem tensors_step_of_notMem {op : Operator} (f : Meaning) (h : id ∉ op.targets g) :
    (v.step g op k f).tensors id = v.tensors id := by
  apply tensors_putAll_of_notMem
  intro hmem
  obtain ⟨⟨x, bytes⟩, hp, rfl⟩ := List.mem_map.mp hmem
  exact h (List.of_mem_zip hp).1

theorem persistent_step_of_stateless (op : Operator) {f : Meaning} (h : f.Stateless) :
    (v.step g op k f).persistent = v.persistent := by
  funext j
  by_cases hj : j = k
  · subst hj
    show (if j = j then _ else _) = _
    rw [if_pos rfl, h]
  · show (if j = k then _ else _) = _
    rw [if_neg hj, persistent_putAll]

/-- A run leaves alone what no operator writes. -/
theorem tensors_run_of_notMem {ops : List (Operator × Meaning)}
    (h : ∀ p ∈ ops, id ∉ p.1.targets g) : (run g ops k v).tensors id = v.tensors id := by
  induction ops generalizing v k with
  | nil => rfl
  | cons p rest ih =>
    obtain ⟨hfirst, hrest⟩ := List.forall_mem_cons.mp h
    exact (ih hrest).trans (tensors_step_of_notMem p.2 hfirst)

theorem persistent_run_of_stateless {ops : List (Operator × Meaning)}
    (h : ∀ p ∈ ops, p.2.Stateless) : (run g ops k v).persistent = v.persistent := by
  induction ops generalizing v k with
  | nil => rfl
  | cons p rest ih =>
    obtain ⟨hfirst, hrest⟩ := List.forall_mem_cons.mp h
    exact (ih hrest).trans (persistent_step_of_stateless p.1 hfirst)

end Stores

namespace Interpreter

variable {σ π : Type} {i : Interpreter σ π} {tables : Tables} {a : Allotment} {s s' : Site σ π}
  {meanings : List Meaning} {v : Stores}

/-- An interpreter that keeps nothing from one run to the next but its inputs. -/
structure Repeats (i : Interpreter σ π) (a : Allotment) (meanings : List Meaning) : Prop where
  computed : i.graph.toGraph.Computed i.kernels meanings
  prepared : a.Prepared i.graph.toGraph i.kernels
  keeps : a.KeepsInputs i.graph.toGraph
  noVariable : ∀ op ∈ i.graph.operators, op.ReadsNoVariable i.graph.toGraph
  stateless : ∀ f ∈ meanings, f.Stateless

/-- What one run makes of the stores. -/
def afterRun (i : Interpreter σ π) (meanings : List Meaning) (v : Stores) : Stores :=
  Stores.run i.graph.toGraph (i.graph.operators.zip meanings) 0 v

/-- After a run the interpreter stands where it stood before: its inputs are as they were, and nothing
else counts. -/
theorem Repeats.rewind (hr : i.Repeats a meanings)
    (h : i.Follows tables a (fun id => id ∈ i.graph.inputs) v s)
    (hran : i.Follows tables a (i.graph.toGraph.LiveOrInput i.graph.operators.length)
      (i.afterRun meanings v) s') :
    i.Follows tables a (fun id => id ∈ i.graph.inputs) v s' := by
  refine ⟨hran.toServes, h.sized, fun hb => ⟨fun id t hs hknown => ?_, fun k grant hg => ?_⟩⟩
  · rw [(hran.tracks hb).tensors id t hs fun hkind => .inr (hknown hkind)]
    apply Stores.tensors_run_of_notMem
    intro p hp hmem
    -- Operators write activations that are no inputs.
    obtain ⟨k, hk⟩ := List.mem_iff_getElem?.mp hp
    have hop := (List.getElem?_zip_eq_some.mp hk).1
    rw [(hr.noVariable p.1 (List.mem_of_getElem? hop)).targets_eq] at hmem
    obtain ⟨⟨t', ht', hkind⟩, hnot, -⟩ := i.graph.rules.write k p.1 hop id hmem
    cases hs.1.symm.trans ht'
    exact hnot (hknown hkind)
  · rw [(hran.tracks hb).persistent k grant hg, afterRun, Stores.persistent_run_of_stateless]
    intro p hp
    exact hr.stateless p.2 (List.of_mem_zip hp).2

/-- One run that succeeds. -/
theorem Repeats.invoke (hr : i.Repeats a meanings)
    (h : i.Follows tables a (fun id => id ∈ i.graph.inputs) v s) (hok : (i.invoke s).1 = .ok ()) :
    (i.invoke s).2.1 = i ∧
      i.Follows tables a (i.graph.toGraph.LiveOrInput i.graph.operators.length)
        (i.afterRun meanings v) (i.invoke s).2.2 := by
  have hzero : i.Follows tables a (i.graph.toGraph.LiveOrInput 0) v s := by
    apply h.mono
    intro id hid
    exact hid.elim Allotment.live_zero fun hin => hin
  have hknows := Allotment.knows_liveOrInput i.graph.rules h.lodged.fits hr.keeps
  exact (hzero.invoke hknows hr.computed hr.prepared).resolve_right fun hfail => hfail.1 hok

/-- Two sites where outputs are live and stand for the same stores show the same output. -/
theorem Follows.output_eq (h : i.Follows tables a
      (i.graph.toGraph.LiveOrInput i.graph.operators.length) v s)
    (h' : i.Follows tables a (i.graph.toGraph.LiveOrInput i.graph.operators.length) v s')
    (hmade : i.Made) (index : Nat) : i.output s index = i.output s' index := by
  unfold Interpreter.output lookup
  cases hout : i.graph.outputs[index]? with
  | none => rfl
  | some id =>
    have hmem := List.mem_of_getElem? hout
    have ht := List.getElem?_eq_getElem (i.graph.rules.output_lt id hmem)
    obtain ⟨bytes, hvalue, htensor⟩ := (h.mono fun _ => .inl).tensor_at hmade ht (.inl hmem)
    obtain ⟨bytes', hvalue', htensor'⟩ := (h'.mono fun _ => .inl).tensor_at hmade ht (.inl hmem)
    cases hvalue.symm.trans hvalue'
    show i.tensor s id = i.tensor s' id
    rw [htensor, htensor']

end Interpreter

end TensorArena
