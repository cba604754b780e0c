import TensorArena.Kernel.Access
import TensorArena.Proofs.Reference.Meaning

/-!
# Steps of kernels

What a kernel that succeeds has done, step by step: what it read came from the bytes of its operands,
and what it wrote is in them. The first steps are those of any computation with a state that may give
up.
-/

namespace TensorArena

namespace Bytes

theorem length_overlay (bytes new : Bytes) : (overlay bytes new).length = bytes.length := by
  rw [overlay, List.length_append, List.length_take, List.length_drop]
  omega

/-- Bytes that are as many as before replace them all. -/
theorem overlay_eq {bytes new : Bytes} (h : new.length = bytes.length) : overlay bytes new = new := by
  rw [overlay, ← h, List.take_length, h, List.drop_length, List.append_nil]

/-- So many bytes, the first of them those of words. -/
def laid (size width : Nat) (ws : List Nat) : Bytes :=
  overlay (List.replicate size 0) (ofWords width ws)

@[simp]
theorem length_laid (size width : Nat) (ws : List Nat) : (laid size width ws).length = size := by
  rw [laid, length_overlay, List.length_replicate]

/-- Words that fill the bytes leave nothing of what these were. -/
theorem overlay_ofWords {bytes : Bytes} {width : Nat} {ws : List Nat}
    (h : ws.length * width = bytes.length) :
    overlay bytes (ofWords width ws) = laid bytes.length width ws := by
  have hnew : (ofWords width ws).length = bytes.length := by rw [length_ofWords, h]
  rw [laid, overlay_eq hnew, overlay_eq (hnew.trans List.length_replicate.symm)]

end Bytes

/-! ## Steps that succeed -/

namespace Step

variable {ε τ α β : Type} {st st' : τ}

theorem run_bind (x : ExceptT ε (StateM τ) α) (f : α → ExceptT ε (StateM τ) β) (st : τ) :
    (x >>= f).run st =
      match x.run st with
      | (.ok a, st₁) => (f a).run st₁
      | (.error e, st₁) => (.error e, st₁) := by
  change (x >>= f).run.run st = _
  cases hx : x.run st with
  | mk answer st₁ =>
    have hrun : x.run.run st = pure (answer, st₁) := hx
    rw [ExceptT.run_bind, StateT.run_bind, hrun, pure_bind]
    cases answer with
    | ok a => rfl
    | error e => rfl

/-- A run that succeeds went through its first step. -/
theorem bind_ok {x : ExceptT ε (StateM τ) α} {f : α → ExceptT ε (StateM τ) β} {b : β}
    (h : (x >>= f).run st = (.ok b, st')) :
    ∃ a st₁, x.run st = (.ok a, st₁) ∧ (f a).run st₁ = (.ok b, st') := by
  rw [run_bind] at h
  split at h
  · rename_i a st₁ hx
    exact ⟨a, st₁, hx, h⟩
  · cases h

theorem liftExcept_ok {x : Except ε α} {a : α}
    (h : (liftExcept x : ExceptT ε (StateM τ) α).run st = (.ok a, st')) : x = .ok a ∧ st' = st := by
  cases x with
  | ok b =>
    cases h
    exact ⟨rfl, rfl⟩
  | error e => cases h

end Step

theorem map_ok {ε α β : Type} {x : Except ε α} {f : α → β} {b : β} (h : x.map f = .ok b) :
    ∃ a, x = .ok a ∧ f a = b := by
  cases x with
  | ok a => exact ⟨a, rfl, Except.ok.inj h⟩
  | error e => cases h

theorem mapError_ok {ε ε' α : Type} {x : Except ε α} {f : ε → ε'} {a : α}
    (h : x.mapError f = .ok a) : x = .ok a := by
  cases x with
  | ok b => exact congrArg Except.ok (Except.ok.inj h)
  | error e => cases h

/-- Elements that were read are the words of the bytes. -/
theorem Slice.elements_ok {s : Slice} {d wanted : DType} {ws : List Nat}
    (h : s.elements d wanted = .ok ws) :
    d = wanted ∧ wanted.size ∣ s.bytes.length ∧ ws = Bytes.words wanted.size s.bytes := by
  unfold Slice.elements at h
  split at h
  · cases h
  · rename_i hd
    split at h
    · cases h
    · split at h
      · cases h
      · rename_i hragged
        cases h
        exact ⟨Decidable.not_not.mp hd, Nat.dvd_of_mod_eq_zero (Decidable.not_not.mp hragged), rfl⟩

namespace KernelM

variable {σ α : Type} {st st' : Operands × σ}

theorem look_ok {f : Operands → Except KernelError α} {a : α}
    (h : (look f : KernelM σ α).run st = (.ok a, st')) : f st.1 = .ok a ∧ st' = st := by
  change (liftExcept (f st.1) : KernelM σ α).run st = _ at h
  exact Step.liftExcept_ok h

theorem change_ok {f : Operands → Operands} (h : (change f : KernelM σ Unit).run st = (.ok (), st')) :
    st' = (f st.1, st.2) := by
  cases h
  rfl

theorem elements_ok {v : View} {d : DType} {ws : List Nat}
    (h : (elements v d : KernelM σ (List Nat)).run st = (.ok ws, st')) :
    ws = Bytes.words d.size v.slice.bytes ∧ d.size ∣ v.slice.bytes.length ∧ st' = st := by
  obtain ⟨hview, rfl⟩ := Step.liftExcept_ok h
  obtain ⟨-, hdvd, rfl⟩ := Slice.elements_ok (mapError_ok hview)
  exact ⟨rfl, hdvd, rfl⟩

theorem dtype_of_elements {v : View} {d : DType} {ws : List Nat}
    (h : (elements v d : KernelM σ (List Nat)).run st = (.ok ws, st')) : v.dtype = d := by
  obtain ⟨hview, -⟩ := Step.liftExcept_ok h
  exact (Slice.elements_ok (mapError_ok hview)).1

theorem first_ok {v : View} {d : DType} {w : Nat}
    (h : (first v d : KernelM σ Nat).run st = (.ok w, st')) :
    w = (Bytes.words d.size v.slice.bytes).headD 0 ∧ st' = st := by
  unfold first at h
  obtain ⟨ws, _, h₁, hrest⟩ := Step.bind_ok h
  obtain ⟨hws, -, rfl⟩ := elements_ok h₁
  rw [← hws]
  cases ws with
  | nil => cases hrest
  | cons head rest =>
    cases hrest
    exact ⟨rfl, rfl⟩

theorem storeOutput_ok {i : Nat} {v : View} {d : DType} {ws : List Nat}
    (h : (storeOutput i v d ws : KernelM σ Unit).run st = (.ok (), st')) :
    d.size ∣ v.slice.bytes.length ∧ st' = (st.1.setOutput i (v.slice.store d.size ws), st.2) := by
  unfold storeOutput at h
  obtain ⟨_, _, h₁, hrest⟩ := Step.bind_ok h
  obtain ⟨-, hdvd, rfl⟩ := elements_ok h₁
  cases hrest
  exact ⟨hdvd, rfl⟩

/-- Filling an output is storing one word over and over. -/
theorem fillOutput_ok {i : Nat} {v : View} {d : DType} {w : Nat}
    (h : (fillOutput i v d w : KernelM σ Unit).run st = (.ok (), st')) :
    d.size ∣ v.slice.bytes.length ∧ st' = (st.1.setOutput i (v.slice.fill d.size w), st.2) :=
  storeOutput_ok h

end KernelM

/-! ## Operands that were found -/

/-- A view is over as many bytes as its tensor has. -/
theorem Tensor.viewOf_ok {t : Tensor} {slice : Slice} {v : View} (h : t.viewOf slice = .ok v) :
    v.slice = slice ∧ slice.bytes.length = t.size := by
  unfold Tensor.viewOf View.make at h
  split at h
  · cases h
  · rename_i hsize
    cases h
    exact ⟨rfl, (Decidable.not_not.mp hsize).symm⟩

theorem Tensor.dtype_of_viewOf {t : Tensor} {slice : Slice} {v : View}
    (h : t.viewOf slice = .ok v) : v.dtype = t.dtype := by
  unfold Tensor.viewOf View.make at h
  split at h
  · cases h
  · cases h
    rfl

theorem Operands.output_ok {o : Operands} {i : Nat} {t : Tensor} {slice : Slice} {v : View}
    (ho : o.outputs[i]? = some (some (t, slice))) (h : o.output i = .ok v) :
    t.viewOf slice = .ok v := by
  unfold Operands.output Operands.output? at h
  rw [ho] at h
  dsimp only at h
  cases hview : t.viewOf slice with
  | ok v' =>
    rw [hview] at h
    exact h
  | error e =>
    rw [hview] at h
    cases h

theorem Slice.FitsOutput.exists_tensor {g : Graph} {id : Nat} {out : Option (Tensor × Slice)}
    (h : Slice.FitsOutput g (some id) out) :
    ∃ t slice, out = some (t, slice) ∧ g.tensors[id]? = some t := by
  cases out with
  | none => exact h.elim
  | some out => exact ⟨out.1, out.2, rfl, h.1⟩

/-- The bytes of an operand in a list of them. -/
def argument (inputs : List (Option Bytes)) (i : Nat) : Bytes :=
  ((inputs[i]?).join).getD []

namespace Operands

variable {o : Operands} {i : Nat} {v : View}

/-- What is seen of an input, variable or not, is its slice as its tensor says. -/
theorem viewOf_input (h : o.input i = .ok v) : ∃ t slice, t.viewOf slice = .ok v ∧
    (o.inputs[i]? = some (.shared t slice) ∨ o.inputs[i]? = some (.var t slice)) := by
  have hfound : o.input? i = .ok (some v) := by
    unfold input at h
    split at h
    · cases h
      assumption
    · cases h
    · cases h
  unfold input? at hfound
  split at hfound
  · rename_i t slice hin
    obtain ⟨_, hview, heq⟩ := map_ok hfound
    cases heq
    exact ⟨t, slice, hview, .inl hin⟩
  · rename_i t slice hin
    obtain ⟨_, hview, heq⟩ := map_ok hfound
    cases heq
    exact ⟨t, slice, hview, .inr hin⟩
  · cases hfound
  · cases hfound

theorem input_ok (h : o.input i = .ok v) :
    v.slice.bytes = argument (o.inputs.map Input.bytes) i := by
  obtain ⟨t, slice, hview, hin | hin⟩ := viewOf_input h
  · rw [(Tensor.viewOf_ok hview).1, argument, List.getElem?_map, hin]
    rfl
  · rw [(Tensor.viewOf_ok hview).1, argument, List.getElem?_map, hin]
    rfl

theorem output?_some (h : o.output? i = .ok (some v)) :
    ∃ t, o.outputs[i]? = some (some (t, v.slice)) ∧ t.viewOf v.slice = .ok v := by
  unfold output? at h
  split at h
  · rename_i t slice hout
    obtain ⟨_, hview, heq⟩ := map_ok h
    cases heq
    have hslice := (Tensor.viewOf_ok hview).1
    exact ⟨t, by rw [hout, hslice], by rw [hslice, hview]⟩
  · cases h
  · cases h

theorem output?_none (h : o.output? i = .ok none) : (o.outputs[i]?).join = none := by
  unfold output? at h
  split at h
  · obtain ⟨_, -, heq⟩ := map_ok h
    cases heq
  · rename_i hout
    rw [hout]
    rfl
  · rename_i hout
    rw [hout]
    rfl

theorem output_found (h : o.output i = .ok v) :
    ∃ t, o.outputs[i]? = some (some (t, v.slice)) ∧ t.viewOf v.slice = .ok v := by
  refine output?_some ?_
  unfold output at h
  split at h
  · cases h
    assumption
  · cases h
  · cases h

theorem scratchBlock_ok {k : Nat} {block : Slice} (h : o.scratchBlock k = .ok block) :
    o.scratch[k]? = some block := by
  unfold scratchBlock at h
  split at h
  · cases h
    assumption
  · cases h

end Operands

end TensorArena
