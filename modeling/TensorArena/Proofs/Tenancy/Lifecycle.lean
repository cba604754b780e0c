import Mathlib.Data.List.Induction
import TensorArena.Proofs.Interpreter.States
import TensorArena.Proofs.Tenancy.Invariant

/-!
# Lives of interpreters

Whatever tenants and the holder of a store do, an interpreter follows its states: it is orderly at
every moment of a run, and once it has failed it stays failed. The tables that it knows tell its past:
it has some exactly when one of its passes succeeded, in a call to allocate it or at the start of an
invocation. That is why tensors can be read after the failure of a kernel and not after the failure
of a pass.
-/

namespace TensorArena

variable {σ π : Type}

theorem Interpreter.state_setContext (i : Interpreter σ π) (value : Int) (s : Site σ π) :
    (i.setContext value s).2.1.state = i.state := by
  unfold setContext
  split
  · rfl
  · rfl

namespace Tenancy

variable {t : Tenancy σ π}

/-! ## One action -/

/-- The state of a tenant's interpreter after an action of anybody. -/
def Action.stateAfter (action : Action σ π) (number : Nat) (i : Interpreter σ π)
    (s : Site σ π) : Lifecycle :=
  match action with
  | .allocate n => if n = number then (i.allocate s).2.1.state else i.state
  | .invoke n => if n = number then (i.invoke s).2.1.state else i.state
  | _ => i.state

theorem tenant_call {m n : Nat} {f : Interpreter σ π → Site σ π → Interpreter σ π × Site σ π}
    {i' : Interpreter σ π} (h : ((t.call m f).2[n]?).join = some i') :
    ∃ i, t.tenant? n = some i ∧ i' = if m = n then (f i t.site).1 else i := by
  unfold call at h
  cases hm : t.tenant? m with
  | none =>
    rw [hm] at h
    have hne : m ≠ n := by
      rintro rfl
      cases hm.symm.trans h
    exact ⟨i', h, (if_neg hne).symm⟩
  | some i =>
    rw [hm] at h
    rcases join_getElem?_set h with ⟨rfl, heq⟩ | ⟨hne, hold⟩
    · cases heq
      exact ⟨i, hm, (if_pos rfl).symm⟩
    · exact ⟨i', hold, (if_neg (Ne.symm hne)).symm⟩

/-- A call that leaves the state of the interpreter. -/
theorem tenant_call_state {m n : Nat}
    {f : Interpreter σ π → Site σ π → Interpreter σ π × Site σ π}
    (hstate : ∀ i s, (f i s).1.state = i.state) {i' : Interpreter σ π}
    (h : ((t.call m f).2[n]?).join = some i') :
    ∃ i, t.tenant? n = some i ∧ i'.state = i.state := by
  obtain ⟨i, hi, rfl⟩ := tenant_call h
  refine ⟨i, hi, ?_⟩
  split
  · exact hstate i _
  · rfl

/-- After an action a tenant has just moved in, or its interpreter was there before. -/
theorem tenant_step {action : Action σ π} {n : Nat} {i' : Interpreter σ π}
    (h : (t.step action).tenant? n = some i') :
    (n = t.tenants.length ∧ i'.state = .created) ∨
      ∃ i, t.tenant? n = some i ∧ i'.state = action.stateAfter n i t.site := by
  have hkept : ∀ {i}, t.tenant? n = some i → i'.state = i.state →
      action.stateAfter n i t.site = i.state → (n = t.tenants.length ∧ i'.state = .created) ∨
        ∃ i, t.tenant? n = some i ∧ i'.state = action.stateAfter n i t.site :=
    fun hi hstate hafter => .inr ⟨_, hi, hstate.trans hafter.symm⟩
  have h : ((t.act action).2[n]?).join = some i' := h
  cases action with
  | enter g resolver =>
    unfold act at h
    dsimp only at h
    split at h
    · rename_i i s hcreate
      rcases join_getElem?_concat h with ⟨rfl, rfl⟩ | h
      · exact .inl ⟨rfl, (Interpreter.create_ok hcreate).2.2.1⟩
      · exact hkept h rfl rfl
    · exact hkept h rfl rfl
  | equip m strategy profiler profiling =>
    obtain ⟨i, hi, hstate⟩ := tenant_call_state (fun _ _ => rfl) h
    exact hkept hi hstate rfl
  | setContext m value =>
    obtain ⟨i, hi, hstate⟩ := tenant_call_state (fun i s => i.state_setContext value s) h
    exact hkept hi hstate rfl
  | allocate m =>
    obtain ⟨i, hi, rfl⟩ := tenant_call h
    exact .inr ⟨i, hi, apply_ite Interpreter.state ..⟩
  | write m id bytes =>
    obtain ⟨i, hi, hstate⟩ := tenant_call_state (fun _ _ => rfl) h
    exact hkept hi hstate rfl
  | invoke m =>
    obtain ⟨i, hi, rfl⟩ := tenant_call h
    exact .inr ⟨i, hi, apply_ite Interpreter.state ..⟩
  | drop m =>
    unfold act at h
    dsimp only at h
    split at h
    · exact hkept h rfl rfl
    · rcases join_getElem?_set h with ⟨-, hnone⟩ | ⟨-, hold⟩
      · cases hnone
      · exact hkept hold rfl rfl
  | request region size align category => exact hkept h rfl rfl
  | rewind => exact hkept h rfl rfl
  | poke block offset bytes =>
    unfold act at h
    dsimp only at h
    split at h
    · exact hkept h rfl rfl
    · exact hkept h rfl rfl
  | hold hold => exact hkept h rfl rfl
  | profile change => exact hkept h rfl rfl

/-- Places of tenants are never given up. -/
theorem length_le_step (t : Tenancy σ π) (action : Action σ π) :
    t.tenants.length ≤ (t.step action).tenants.length := by
  have hcall : ∀ m f, (t.call m f).2.length = t.tenants.length := by
    intro m f
    unfold call
    split
    · rfl
    · exact List.length_set
  show _ ≤ (t.act action).2.length
  cases action with
  | enter g resolver =>
    unfold act
    dsimp only
    split
    · simp
    · exact Nat.le_refl _
  | equip | setContext | allocate | write | invoke => exact Nat.le_of_eq (hcall _ _).symm
  | drop m =>
    unfold act
    dsimp only
    split
    · exact Nat.le_refl _
    · simp
  | poke block offset bytes =>
    unfold act
    dsimp only
    split
    · exact Nat.le_refl _
    · exact Nat.le_refl _
  | request | rewind | hold | profile => exact Nat.le_refl _

theorem length_le_run (t : Tenancy σ π) (actions : List (Action σ π)) :
    t.tenants.length ≤ (t.run actions).tenants.length := by
  induction actions generalizing t with
  | nil => exact Nat.le_refl _
  | cons action rest ih => exact Nat.le_trans (t.length_le_step action) (ih _)

theorem lt_of_tenant? {n : Nat} {i : Interpreter σ π} (hi : t.tenant? n = some i) :
    n < t.tenants.length := by
  refine Nat.lt_of_not_le fun hle => ?_
  rw [tenant?, List.getElem?_eq_none hle] at hi
  cases hi

/-- A failed interpreter stays failed through every action. -/
theorem Action.stateAfter_failed (action : Action σ π) {n : Nat} {i : Interpreter σ π}
    {s : Site σ π} {known : Option Tables} (hstate : i.state = .failed known) :
    action.stateAfter n i s = .failed known := by
  cases action with
  | allocate m => simp [stateAfter, Interpreter.allocate_of_failed hstate, hstate]
  | invoke m => simp [stateAfter, Interpreter.invoke_of_failed hstate, hstate]
  | _ => exact hstate

/-! ## Passes in the past -/

/-- The action is a call that begins with a pass, if the interpreter is only created. -/
def Action.Tries : Action σ π → (number : Nat) → Prop
  | .allocate n, number | .invoke n, number => n = number
  | _, _ => False

/-- The action lets a pass of the tenant's interpreter succeed. -/
def Passes (t : Tenancy σ π) (number : Nat) (action : Action σ π) : Prop :=
  action.Tries number ∧
    ∃ i, t.tenant? number = some i ∧ i.state = .created ∧ (i.allocate t.site).1 = .ok ()

/-- One of the actions let a pass of the tenant's interpreter succeed. -/
def Passed (t : Tenancy σ π) (actions : List (Action σ π)) (number : Nat) : Prop :=
  ∃ before action after, actions = before ++ action :: after ∧ (t.run before).Passes number action

theorem run_snoc (t : Tenancy σ π) (actions : List (Action σ π)) (action : Action σ π) :
    t.run (actions ++ [action]) = (t.run actions).step action :=
  List.foldl_append

theorem passed_snoc {actions : List (Action σ π)} {action : Action σ π} {n : Nat} :
    t.Passed (actions ++ [action]) n ↔ t.Passed actions n ∨ (t.run actions).Passes n action := by
  constructor
  · rintro ⟨before, action', after, heq, hpasses⟩
    rcases List.eq_nil_or_concat after with rfl | ⟨after, last, rfl⟩
    · obtain ⟨rfl, hsame⟩ := List.append_inj' heq rfl
      cases hsame
      exact .inr hpasses
    · rw [List.concat_eq_append, ← List.cons_append, ← List.append_assoc] at heq
      obtain ⟨rfl, -⟩ := List.append_inj' heq rfl
      exact .inl ⟨before, action', after, rfl, hpasses⟩
  · rintro (⟨before, action', after, rfl, hpasses⟩ | hpasses)
    · exact ⟨before, action', after ++ [action], by simp, hpasses⟩
    · exact ⟨actions, action, [], rfl, hpasses⟩

theorem Passes.lt {action : Action σ π} {n : Nat} (h : t.Passes n action) :
    n < t.tenants.length := by
  obtain ⟨-, i, hi, -⟩ := h
  exact lt_of_tenant? hi

theorem Passed.lt {actions : List (Action σ π)} {n : Nat} (h : t.Passed actions n) :
    n < (t.run actions).tenants.length := by
  induction actions using List.reverseRecOn with
  | nil =>
    obtain ⟨before, action, after, heq, -⟩ := h
    simp at heq
  | append_singleton actions action ih =>
    rw [run_snoc]
    refine Nat.lt_of_lt_of_le ?_ (length_le_step _ action)
    rcases passed_snoc.mp h with h | h
    · exact ih h
    · exact h.lt

/-- Tables become known by an action that lets a pass succeed, and are never forgotten. -/
theorem known_stateAfter {action : Action σ π} {n : Nat} {i : Interpreter σ π}
    (hi : t.tenant? n = some i) :
    (action.stateAfter n i t.site).tables?.isSome ↔
      i.state.tables?.isSome ∨ t.Passes n action := by
  have htries : action.Tries n → (t.Passes n action ↔
      i.state = .created ∧ (i.allocate t.site).1 = .ok ()) := by
    refine fun h => ⟨?_, fun hpass => ⟨h, i, hi, hpass⟩⟩
    rintro ⟨-, i', hi', hpass⟩
    cases hi.symm.trans hi'
    exact hpass
  cases action with
  | allocate m =>
    by_cases hm : m = n
    · rw [htries hm, Action.stateAfter, if_pos hm]
      exact Interpreter.known_allocate
    · simp [Action.stateAfter, hm, Passes, Action.Tries]
  | invoke m =>
    by_cases hm : m = n
    · rw [htries hm, Action.stateAfter, if_pos hm]
      exact Interpreter.known_invoke
    · simp [Action.stateAfter, hm, Passes, Action.Tries]
  | _ => simp [Action.stateAfter, Passes, Action.Tries]

/-- The tables that an interpreter knows tell whether a pass of it succeeded. -/
theorem known_iff_passed (s : Site σ π) (actions : List (Action σ π)) {n : Nat}
    {i : Interpreter σ π} (hi : ((start s).run actions).tenant? n = some i) :
    i.state.tables?.isSome ↔ (start s).Passed actions n := by
  -- The induction goes over the last action: the history before it is a history too.
  induction actions using List.reverseRecOn generalizing i with
  | nil => cases hi
  | append_singleton actions action ih =>
    rw [run_snoc] at hi
    rw [passed_snoc]
    rcases tenant_step hi with ⟨rfl, hcreated⟩ | ⟨i₀, hi₀, hstate⟩
    · -- Who moves in has no past: the number was not given before.
      refine iff_of_false ?_ ?_
      · simp [hcreated]
      · rintro (h | h)
        · exact Nat.lt_irrefl _ h.lt
        · exact Nat.lt_irrefl _ h.lt
    · rw [hstate, known_stateAfter hi₀, ih hi₀]

/-! ## Whole runs -/

/-- Once an interpreter has failed it stays failed until it is dropped. -/
theorem state_of_run_failed {n : Nat} {i : Interpreter σ π} (hi : t.tenant? n = some i)
    {known : Option Tables} (hstate : i.state = .failed known) (more : List (Action σ π))
    {i' : Interpreter σ π} (hi' : (t.run more).tenant? n = some i') :
    i'.state = .failed known := by
  induction more using List.reverseRecOn generalizing i' with
  | nil =>
    cases hi.symm.trans hi'
    exact hstate
  | append_singleton more action ih =>
    rw [run_snoc] at hi'
    rcases tenant_step hi' with ⟨rfl, -⟩ | ⟨i₀, hi₀, hafter⟩
    · exact absurd (Nat.lt_of_lt_of_le (lt_of_tenant? hi) (t.length_le_run more)) (Nat.lt_irrefl _)
    · exact hafter.trans (action.stateAfter_failed (ih hi₀))

/-- After any actions on a sound store, an interpreter is orderly, with the successful passes of its
past as its history; and if it has failed, it is failed after any more actions, until it is
dropped. -/
theorem run_keeps_orderly {s : Site σ π} (hs : s.Sound) (actions : List (Action σ π)) {n : Nat}
    {i : Interpreter σ π} (hi : ((start s).run actions).tenant? n = some i) :
    i.Orderly ((start s).run actions).site ((start s).Passed actions n) ∧
    ∀ known, i.state = .failed known → ∀ more i',
      ((start s).run (actions ++ more)).tenant? n = some i' → i'.state = .failed known := by
  have ht := (start_sound hs).run actions
  obtain ⟨hmade, hstrategy, hlodged⟩ := ht.tenants n i hi
  refine ⟨Interpreter.orderly ht.site hmade hstrategy (fun tables htables => ?_)
    (known_iff_passed s actions hi), fun known hstate more i' hi' => ?_⟩
  · obtain ⟨a, hl, -⟩ := hlodged tables htables
    exact ⟨a, hl⟩
  · rw [run, List.foldl_append] at hi'
    exact state_of_run_failed hi hstate more hi'

/-- The second tenant of the small store is allocated, and so it is orderly with a pass in its past. -/
theorem run_keeps_orderly_of_sample :
    ∃ i, (sampleStart.run (sampleActions .firstFit)).tenant? 1 = some i ∧
      i.state = .allocated ⟨288, 224, 112⟩ ∧
      i.Orderly (sampleStart.run (sampleActions .firstFit)).site
        (sampleStart.Passed (sampleActions .firstFit) 1) := by
  obtain ⟨-, i, -, -, hi, hi'⟩ := sample_tenants
  have hsound : Site.Sound (Site.ofBuffer 7 (.replicate 600 255) () () : Site Unit Unit) :=
    Site.ofBuffer_sound ..
  exact ⟨i, hi, hi', (run_keeps_orderly hsound (sampleActions .firstFit) hi).1⟩

end Tenancy

end TensorArena
