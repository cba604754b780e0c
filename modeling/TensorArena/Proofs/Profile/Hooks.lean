import Mathlib.Control.Monad.Basic
import TensorArena.Profile.Basic
import TensorArena.Proofs.Profile.Unprofiled

/-!
# The calls of a profiler

What a profiler is told by an invocation, as the list of `Moment`s that lead from the site before to
the site after: a start and a stop are the calls of the profiler, a kernel is a run of a kernel.
`Bracket` is the shape of one operator: the start comes right before the kernel, and the stop right
after it exactly when the start gave an event to stop, so `Opening` and `Closing` share the event.
`Brackets` puts them in the order of the graph, up to the operator that fails.

A profiler may be in use by somebody else when its call is due. Then it is not called at all: the site
after such a moment is the site before it with one warning more. A start that is left out gives no
event.
-/

namespace TensorArena

variable {σ π : Type}

/-- What happens while operators run. -/
inductive Moment where
  | start (tag : String) (answer : Except ProfilerError Nat)
  | kernel (index : Nat) (outcome : Except KernelError Unit)
  | stop (event : Nat) (answer : Except ProfilerError Unit)
  /-- The profiler is in use and not told of a start. -/
  | skippedStart (tag : String)
  /-- The profiler is in use and not told of a stop. -/
  | skippedStop (event : Nat)

/-- Nothing changed but the log. -/
structure Site.Silent (s s' : Site σ π) : Prop extends Quiet s s' where
  profile_eq : s'.profile = s.profile

/-- What a moment is for an interpreter that runs with these tables: a call of its profiler, which
finds it free and changes nothing but the state of the profiler and the log; the run of an operator's
kernel on the operands that are bound to it, which leaves the profiler alone; or a call that is left
out because the profiler is in use, which leaves one warning and changes nothing else. -/
def Interpreter.Happens (i : Interpreter σ π) (tables : Tables) (m : Moment)
    (s s' : Site σ π) : Prop :=
  match m with
  | .start tag answer =>
    ∃ p, i.activeProfiler = some p ∧ p.inUse s.profile = false ∧
      p.start tag s.profile = (answer, s'.profile) ∧ s.Quiet s'
  | .kernel index outcome =>
    ∃ op k o, (i.graph.operators.zip i.kernels)[index]? = some (op, k) ∧
      s.bound i.graph.toGraph op tables index i.context = .ok o ∧
      Site.Ran k o outcome s s' ∧ s'.profile = s.profile
  | .stop event answer =>
    ∃ p, i.activeProfiler = some p ∧ p.inUse s.profile = false ∧
      p.stop event s.profile = (answer, s'.profile) ∧ s.Quiet s'
  | .skippedStart tag =>
    ∃ p, i.activeProfiler = some p ∧ p.inUse s.profile = true ∧
      s' = s.note .warn s!"profiler busy, '{tag}' not profiled"
  | .skippedStop event =>
    ∃ p, i.activeProfiler = some p ∧ p.inUse s.profile = true ∧
      s' = s.note .warn s!"profiler busy, event {event} not closed"

/-- Moments one after the other, from one site to another. -/
inductive History (happens : Moment → Site σ π → Site σ π → Prop) :
    List Moment → Site σ π → Site σ π → Prop
  | nil (s : Site σ π) : History happens [] s s
  | cons {m : Moment} {rest : List Moment} {s s' s'' : Site σ π} :
      happens m s s' → History happens rest s' s'' → History happens (m :: rest) s s''

/-- What comes before the kernel of an operator, and the event that it gives. Without a profiler there
is no call. -/
inductive Opening (tag : String) : (active : Bool) → (event : Option Nat) → List Moment → Prop
  | off : Opening tag false none []
  | told (event : Nat) : Opening tag true (some event) [.start tag (.ok event)]
  | refused (e : ProfilerError) : Opening tag true none [.start tag (.error e)]
  | skipped : Opening tag true none [.skippedStart tag]

/-- What comes after the kernel: nothing without an event, and one stop of the event there is. -/
inductive Closing : (event : Option Nat) → List Moment → Prop
  | nothing : Closing none []
  | told (event : Nat) (answer : Except ProfilerError Unit) :
      Closing (some event) [.stop event answer]
  | skipped (event : Nat) : Closing (some event) [.skippedStop event]

/-- One operator and its kernel. -/
inductive Bracket (tag : String) (index : Nat) (outcome : Except KernelError Unit) (active : Bool) :
    List Moment → Prop
  | mk {event : Option Nat} {first last : List Moment} :
      Opening tag active event first → Closing event last →
        Bracket tag index outcome active (first ++ .kernel index outcome :: last)

/-- All operators in order, up to the first one that is not bound or fails. -/
inductive Brackets (active : Bool) :
    (index : Nat) → List (Operator × Kernel σ) → Except ExecutionError Unit → List Moment → Prop
  | done (index : Nat) : Brackets active index [] (.ok ()) []
  | unbound {index : Nat} {p : Operator × Kernel σ} {rest : List (Operator × Kernel σ)}
      {e : ExecutionError} : e.OfBinding → Brackets active index (p :: rest) (.error e) []
  | failed {index : Nat} {op : Operator} {k : Kernel σ} {rest : List (Operator × Kernel σ)}
      {cause : KernelError} {moments : List Moment} :
      Bracket op.name index (.error cause) active moments →
        Brackets active index ((op, k) :: rest) (.error (.kernel index op.name cause)) moments
  | ran {index : Nat} {op : Operator} {k : Kernel σ} {rest : List (Operator × Kernel σ)}
      {answer : Except ExecutionError Unit} {first later : List Moment} :
      Bracket op.name index (.ok ()) active first →
        Brackets active (index + 1) rest answer later →
        Brackets active index ((op, k) :: rest) answer (first ++ later)

theorem History.append {happens : Moment → Site σ π → Site σ π → Prop} {first later : List Moment}
    {s s' s'' : Site σ π} (h : History happens first s s') (h' : History happens later s' s'') :
    History happens (first ++ later) s s'' := by
  induction h with
  | nil => exact h'
  | cons hm _ ih => exact .cons hm (ih h')

/-! ## One operator -/

namespace Pass

variable {ε : Type}

/-- A profiler in use is not told of a start: its state stays, and there is one warning more. -/
theorem startEvent_of_inUse {s : Site σ π} {p : Profiler π} (h : p.inUse s.profile = true)
    (tag : String) : (startEvent (some p) tag : Pass σ π ε (Option Nat)).exec s =
      (.ok none, s.note .warn s!"profiler busy, '{tag}' not profiled") := by
  refine (exec_bind _ _ s).trans ?_
  show (ite _ _ _ : Pass σ π ε (Option Nat)).exec s = _
  rw [if_pos h]
  rfl

theorem stopEvent_of_inUse {s : Site σ π} {p : Profiler π} (h : p.inUse s.profile = true)
    (event : Nat) : (stopEvent (some p) (some event) : Pass σ π ε Unit).exec s =
      (.ok (), s.note .warn s!"profiler busy, event {event} not closed") := by
  refine (exec_bind _ _ s).trans ?_
  show (ite _ _ _ : Pass σ π ε Unit).exec s = _
  rw [if_pos h]
  rfl

theorem startEvent_of_free {s : Site σ π} {p : Profiler π} (h : p.inUse s.profile = false)
    (tag : String) : (startEvent (some p) tag : Pass σ π ε (Option Nat)).Runs s
      (fun event s' => s.Quiet s' ∧ ∃ answer, p.start tag s.profile = (answer, s'.profile) ∧
        event = answer.toOption)
      (fun _ _ => False) := by
  refine .get_bind ?_
  rw [if_neg (by rw [h]; exact Bool.false_ne_true)]
  refine .modifyGet_bind ?_
  have hquiet := Site.Quiet.profiled s (p.start tag)
  have hcall : p.start tag s.profile =
    ((s.profiled (p.start tag)).1, (s.profiled (p.start tag)).2.profile) := rfl
  split
  · rename_i heq
    rw [heq] at hcall
    exact .of_pure ⟨hquiet, _, hcall, rfl⟩
  · rename_i heq
    rw [heq] at hcall
    exact .note_bind (.of_pure ⟨hquiet.trans (.note ..), _, hcall, rfl⟩)

theorem stopEvent_of_free {s : Site σ π} {p : Profiler π} (h : p.inUse s.profile = false)
    (event : Nat) : (stopEvent (some p) (some event) : Pass σ π ε Unit).Runs s
      (fun _ s' => s.Quiet s' ∧ ∃ answer, p.stop event s.profile = (answer, s'.profile))
      (fun _ _ => False) := by
  refine .get_bind ?_
  rw [if_neg (by rw [h]; exact Bool.false_ne_true)]
  refine .modifyGet_bind ?_
  have hquiet := Site.Quiet.profiled s (p.stop event)
  split
  · exact .of_pure ⟨hquiet, _, rfl⟩
  · exact .of_note ⟨hquiet.trans (.note ..), _, rfl⟩

theorem runKernel_history (s : Site σ π) (k : Kernel σ) (o : Operands) :
    (runKernel k o : Pass σ π ε (Except KernelError Unit)).Runs s
      (fun outcome s' => Site.Ran k o outcome s s' ∧ s'.profile = s.profile) (fun _ _ => False) :=
  ⟨⟨rfl, rfl, rfl, rfl, rfl⟩, rfl⟩

end Pass

namespace Interpreter

variable {i : Interpreter σ π} {tables : Tables} {index : Nat} {op : Operator} {k : Kernel σ}

theorem startEvent_opening {ε : Type} (i : Interpreter σ π) (tables : Tables) (s : Site σ π)
    (tag : String) :
    (Pass.startEvent i.activeProfiler tag : Pass σ π ε (Option Nat)).Runs s
      (fun event s' => s.Quiet s' ∧ ∃ first, Opening tag i.activeProfiler.isSome event first ∧
        History (i.Happens tables) first s s')
      (fun _ _ => False) := by
  cases hactive : i.activeProfiler with
  | none => exact .of_pure ⟨.refl s, [], .off, .nil s⟩
  | some p =>
    cases huse : p.inUse s.profile with
    | true =>
      unfold Pass.Runs
      rw [Pass.startEvent_of_inUse huse]
      exact ⟨.note .., _, .skipped, .cons ⟨p, hactive, huse, rfl⟩ (.nil _)⟩
    | false =>
      refine (Pass.startEvent_of_free huse tag).mono ?_ fun _ _ h => h
      rintro _ s' ⟨hquiet, answer, hcall, rfl⟩
      have hfirst : i.Happens tables (.start tag answer) s s' := ⟨p, hactive, huse, hcall, hquiet⟩
      refine ⟨hquiet, _, ?_, .cons hfirst (.nil _)⟩
      cases answer with
      | ok event => exact .told event
      | error e => exact .refused e

theorem stopEvent_closing {ε : Type} (i : Interpreter σ π) (tables : Tables) (s : Site σ π)
    {event : Option Nat} (hevent : i.activeProfiler = none → event = none) :
    (Pass.stopEvent i.activeProfiler event : Pass σ π ε Unit).Runs s
      (fun _ s' => s.Quiet s' ∧ ∃ last, Closing event last ∧ History (i.Happens tables) last s s')
      (fun _ _ => False) := by
  cases hactive : i.activeProfiler with
  | none =>
    rw [hevent hactive]
    exact .of_pure ⟨.refl s, [], .nothing, .nil s⟩
  | some p =>
    cases event with
    | none => exact .of_pure ⟨.refl s, [], .nothing, .nil s⟩
    | some event =>
      cases huse : p.inUse s.profile with
      | true =>
        unfold Pass.Runs
        rw [Pass.stopEvent_of_inUse huse]
        exact ⟨.note .., _, .skipped event, .cons ⟨p, hactive, huse, rfl⟩ (.nil _)⟩
      | false =>
        refine (Pass.stopEvent_of_free huse event).mono ?_ fun _ _ h => h
        rintro _ s' ⟨hquiet, answer, hcall⟩
        exact ⟨hquiet, _, .told event answer, .cons ⟨p, hactive, huse, hcall, hquiet⟩ (.nil _)⟩

/-- The run of a bound operator is its bracket. -/
theorem runOperator_brackets (hpair : (i.graph.operators.zip i.kernels)[index]? = some (op, k))
    (s : Site σ π) :
    (Pass.runOperator i.graph.toGraph i.activeProfiler i.context tables index op k).Runs s
      (fun _ t => ∃ moments, Bracket op.name index (.ok ()) i.activeProfiler.isSome moments ∧
        History (i.Happens tables) moments s t)
      (fun e t => e.OfBinding ∧ t = s ∨ ∃ cause moments, e = .kernel index op.name cause ∧
        Bracket op.name index (.error cause) i.activeProfiler.isSome moments ∧
        History (i.Happens tables) moments s t) := by
  refine ((Pass.bindOperator_runs s i.graph.toGraph op tables index i.context).mono
    (fun _ _ h => h) fun _ _ h => .inl ⟨Site.bound_ofBinding h.1, h.2⟩).bind ?_
  rintro o _ ⟨hbound, rfl⟩
  rename_i s
  refine ((i.startEvent_opening tables s op.name).mono (fun _ _ h => h)
    fun _ _ h => h.elim).bind fun event s₁ ⟨hquiet, first, hopening, hfirst⟩ => ?_
  refine ((Pass.runKernel_history s₁ k o).mono (fun _ _ h => h) fun _ _ h => h.elim).bind
    fun outcome s₂ ⟨hran, hprofile⟩ => ?_
  have hevent : i.activeProfiler = none → event = none := by
    intro hoff
    rw [hoff] at hopening
    cases hopening
    rfl
  refine ((i.stopEvent_closing tables s₂ hevent).mono (fun _ _ h => h)
    fun _ _ h => h.elim).bind fun _ s₃ ⟨_, last, hclosing, hlast⟩ => ?_
  have hbound₁ : s₁.bound i.graph.toGraph op tables index i.context = .ok o := by
    unfold Site.bound
    rw [hquiet.store_eq]
    exact hbound
  have hbracket : Bracket op.name index outcome i.activeProfiler.isSome _ := .mk hopening hclosing
  have hkernel : i.Happens tables (.kernel index outcome) s₁ s₂ :=
    ⟨op, k, o, hpair, hbound₁, hran, hprofile⟩
  have hhistory := hfirst.append (.cons hkernel hlast)
  cases outcome with
  | ok _ => exact .of_pure ⟨_, hbracket, hhistory⟩
  | error cause => exact .of_throw (.inr ⟨cause, _, rfl, hbracket, hhistory⟩)

/-- The run of operators from one of them on is their brackets. -/
theorem runAll_brackets {pairs : List (Operator × Kernel σ)}
    (hpairs : ∀ j, pairs[j]? = (i.graph.operators.zip i.kernels)[index + j]?) (s : Site σ π) :
    (Pass.runAll i.graph.toGraph i.activeProfiler i.context tables pairs index).Runs s
      (fun _ t => ∃ moments, Brackets i.activeProfiler.isSome index pairs (.ok ()) moments ∧
        History (i.Happens tables) moments s t)
      (fun e t => ∃ moments, Brackets i.activeProfiler.isSome index pairs (.error e) moments ∧
        History (i.Happens tables) moments s t) := by
  induction pairs generalizing index s with
  | nil => exact .of_pure ⟨[], .done index, .nil s⟩
  | cons p rest ih =>
    obtain ⟨op, k⟩ := p
    have hpair : (i.graph.operators.zip i.kernels)[index]? = some (op, k) := (hpairs 0).symm
    refine ((runOperator_brackets hpair s).mono (fun _ _ h => h) ?_).bind ?_
    · rintro e t (⟨hbinding, rfl⟩ | ⟨cause, moments, rfl, hbracket, hhistory⟩)
      · exact ⟨[], .unbound hbinding, .nil _⟩
      · exact ⟨moments, .failed hbracket, hhistory⟩
    · rintro _ s₁ ⟨first, hbracket, hfirst⟩
      have hrest : ∀ j, rest[j]? = (i.graph.operators.zip i.kernels)[index + 1 + j]? := by
        intro j
        rw [Nat.add_assoc, Nat.add_comm 1 j]
        exact hpairs (j + 1)
      refine (ih hrest s₁).mono ?_ ?_
      · rintro _ t ⟨later, hlater, hhistory⟩
        exact ⟨first ++ later, .ran hbracket hlater, hfirst.append hhistory⟩
      · rintro e t ⟨later, hlater, hhistory⟩
        exact ⟨first ++ later, .ran hbracket hlater, hfirst.append hhistory⟩

/-! ## One invocation -/

/-- What an invocation tells the profiler. One that is refused, or whose allocation fails, tells it
nothing. Any other one is its brackets, from the site that the allocation leaves. -/
def Hooked (i : Interpreter σ π) (s : Site σ π) : Prop :=
  (∃ e, (i.invoke s).1 = .error e ∧ ¬ e.OfRun ∧ (i.invoke s).2.2.profile = s.profile) ∨
  ∃ tables moments t, (i.allocate s).2.1.state = .allocated tables ∧
    (i.allocate s).2.2.profile = s.profile ∧
    Brackets i.activeProfiler.isSome 0 (i.graph.operators.zip i.kernels) (i.invoke s).1 moments ∧
    History (i.Happens tables) moments (i.allocate s).2.2 t ∧ t.Silent (i.invoke s).2.2

theorem runOnce_brackets (i : Interpreter σ π) (tables : Tables) {s : Site σ π}
    (hhold : s.hold = .free) :
    ∃ moments t, Brackets i.activeProfiler.isSome 0 (i.graph.operators.zip i.kernels)
        (i.runOnce tables s).1 moments ∧
      History (i.Happens tables) moments s t ∧ t.Silent (i.runOnce tables s).2.2 := by
  have hruns : (Pass.runAll i.graph.toGraph i.activeProfiler i.context tables
      (i.graph.operators.zip i.kernels) 0).Runs s _ _ :=
    runAll_brackets (fun j => by rw [Nat.zero_add]) s
  unfold runOnce
  rw [if_neg (not_not_intro hhold)]
  split
  · rename_i index name cause t hexec
    obtain ⟨moments, hbrackets, hhistory⟩ := hruns.of_error hexec
    exact ⟨moments, t, hbrackets, hhistory, .note .., rfl⟩
  · rename_i outcome t hkernel hexec
    cases outcome with
    | ok _ =>
      obtain ⟨moments, hbrackets, hhistory⟩ := hruns.of_ok hexec
      exact ⟨moments, t, hbrackets, hhistory, .refl t, rfl⟩
    | error e =>
      obtain ⟨moments, hbrackets, hhistory⟩ := hruns.of_error hexec
      exact ⟨moments, t, hbrackets, hhistory, .refl t, rfl⟩

/-- An allocation tells the profiler nothing. -/
theorem profile_allocate (i : Interpreter σ π) (s : Site σ π) :
    (i.allocate s).2.2.profile = s.profile := by
  have hmirrors := Pass.commit_mirrors (R := fun c (_ : π) => c = s.profile) i.graph.toGraph
    i.kernels i.strategy
  have hprofile := (hmirrors.runs s s ⟨rfl, rfl, rfl, rfl, rfl⟩).2.profile
  unfold Pass.exec at hprofile
  unfold allocate
  split
  · rfl
  · rfl
  · split
    · rfl
    · split
      · rename_i hrun
        rw [hrun] at hprofile
        exact hprofile
      · rename_i hrun
        rw [hrun] at hprofile
        exact hprofile

theorem not_ofRun_busy : ¬ ExecutionError.OfRun .busy := by
  rintro (h | ⟨_, _, _, h⟩)
  · exact h
  · cases h

/-- An invocation that gets to run its operators, or finds the store held. -/
theorem hooked_of_runOnce {s : Site σ π}
    (hnext : (i.allocate s).2.1 = { i with state := .allocated tables })
    (hinvoke : i.invoke s = (i.allocate s).2.1.runOnce tables (i.allocate s).2.2) : i.Hooked s := by
  have hprofile := i.profile_allocate s
  by_cases hhold : (i.allocate s).2.2.hold = .free
  · obtain ⟨moments, t, hbrackets, hhistory, hsilent⟩ :=
      runOnce_brackets (i.allocate s).2.1 tables hhold
    rw [← hinvoke] at hbrackets hsilent
    rw [hnext] at hbrackets hhistory
    exact .inr ⟨tables, moments, t, by rw [hnext], hprofile, hbrackets, hhistory, hsilent⟩
  · have hheld : i.invoke s = (.error .busy, (i.allocate s).2) := hinvoke.trans (if_pos hhold)
    exact .inl ⟨.busy, by rw [hheld], not_ofRun_busy, by rw [hheld]; exact hprofile⟩

/-- Every invocation, whatever the interpreter and the site. -/
theorem hooked (i : Interpreter σ π) (s : Site σ π) : i.Hooked s := by
  cases hstate : i.state with
  | allocated tables =>
    have hcall : i.allocate s = (.ok (), i, s) := allocate_of_allocated hstate
    have hnext : (i.allocate s).2.1 = { i with state := .allocated tables } := by
      rw [hcall, ← hstate]
    refine hooked_of_runOnce hnext ?_
    rw [hcall]
    exact invoke_of_allocated hstate
  | failed known =>
    refine .inl ⟨.failed, by rw [invoke_of_failed hstate], ?_, by rw [invoke_of_failed hstate]⟩
    rintro (h | ⟨_, _, _, h⟩)
    · exact h
    · cases h
  | created =>
    cases hanswer : (i.allocate s).1 with
    | error e =>
      have hinvoke := invoke_of_allocate_error hstate hanswer
      refine .inl ⟨.allocation e, by rw [hinvoke], ?_, by rw [hinvoke]; exact i.profile_allocate s⟩
      rintro (h | ⟨_, _, _, h⟩)
      · exact h
      · cases h
    | ok _ =>
      have hhold : s.hold = .free := Decidable.byContradiction fun hheld => by
        rw [allocate_of_held hstate hheld] at hanswer
        cases hanswer
      rcases allocate_eq_of_pass hstate hhold with ⟨tables, -, -, hnext⟩ | ⟨e, -, -, herror, -⟩
      · refine hooked_of_runOnce hnext ?_
        rw [invoke_of_allocate_ok hstate hanswer]
        exact invoke_of_allocated (by rw [hnext])
      · cases hanswer.symm.trans herror

/-- A profiler that is switched off, or in use throughout, is told nothing. -/
theorem profile_of_history {moments : List Moment} {s t : Site σ π}
    (h : History (i.Happens tables) moments s t)
    (hunheard : ∀ p, i.activeProfiler = some p → p.inUse s.profile = true) :
    t.profile = s.profile := by
  induction h with
  | nil => rfl
  | @cons m rest s s' s'' hm _ ih =>
    have hprofile : s'.profile = s.profile := by
      cases m with
      | kernel index outcome =>
        obtain ⟨_, _, _, -, -, -, hprofile⟩ := hm
        exact hprofile
      | start tag answer =>
        obtain ⟨p, hactive, hfree, -⟩ := hm
        cases hfree.symm.trans (hunheard p hactive)
      | stop event answer =>
        obtain ⟨p, hactive, hfree, -⟩ := hm
        cases hfree.symm.trans (hunheard p hactive)
      | skippedStart tag =>
        obtain ⟨_, -, -, rfl⟩ := hm
        rfl
      | skippedStop event =>
        obtain ⟨_, -, -, rfl⟩ := hm
        rfl
    rw [ih (by rwa [hprofile]), hprofile]

theorem profile_invoke_of_unheard {s : Site σ π}
    (hunheard : ∀ p, i.activeProfiler = some p → p.inUse s.profile = true) :
    (i.invoke s).2.2.profile = s.profile := by
  rcases i.hooked s with ⟨e, -, -, hprofile⟩ | ⟨tables, moments, t, -, hprofile, -, hhistory, hsilent⟩
  · exact hprofile
  · rw [hsilent.profile_eq, profile_of_history hhistory (by rwa [hprofile]), hprofile]

end Interpreter

/-! ## All tenants -/

/-- The site without the state of the profiler. -/
def Site.unprofiled (s : Site σ π) : Site σ Unit where
  store := s.store
  hold := s.hold
  outside := s.outside
  profile := ()
  log := s.log
  granted := s.granted

/-- A profiler that others may be using; the first part of its state says whether one of them is. -/
def Profiler.shared (p : Profiler π) : Profiler (Bool × π) where
  start tag c := ((p.start tag c.2).1, c.1, (p.start tag c.2).2)
  stop event c := ((p.stop event c.2).1, c.1, (p.stop event c.2).2)
  inUse := Prod.fst

theorem Graph.Sample.nullIo_check : nullIo.check = .ok () :=
  rfl

namespace Tenancy

/-- After any actions on any store, everything is as if no tenant had a profiler, and a call on any
tenant's interpreter would be answered alike; and whatever an interpreter is invoked on, the profiler
gets the calls of `Hooked` and no others. While it is in use, or switched off, it gets none. -/
theorem run_ignores_profilers (s : Site σ π) (actions : List (Action σ π)) :
    let t := (start s).run actions
    let t' := (start s.unprofiled).run (actions.map Action.unprofiled)
    t.Echoes t' ∧
    ∀ n i, t.tenant? n = some i →
      t'.tenant? n = some i.unprofiled ∧
      (i.allocate t.site).1 = (i.unprofiled.allocate t'.site).1 ∧
      (i.invoke t.site).1 = (i.unprofiled.invoke t'.site).1 ∧
      (∀ id, i.tensor t.site id = i.unprofiled.tensor t'.site id) ∧
      i.Hooked t.site ∧
      (∀ p, i.activeProfiler = some p → p.inUse t.site.profile = true →
        (i.invoke t.site).2.2.profile = t.site.profile) ∧
      (i.profiling = false → (i.invoke t.site).2.2.profile = t.site.profile) := by
  intro t t'
  have hstart : (start s).Echoes (start s.unprofiled) := start_echoes ⟨rfl, rfl, rfl, rfl, trivial⟩
  have hechoes : t.Echoes t' := hstart.run actions
  refine ⟨hechoes, fun n i hi => ⟨?_, ?_, ?_, fun id => ?_, i.hooked t.site, fun p hp huse => ?_,
    fun hoff => ?_⟩⟩
  · rw [hechoes.tenant? n, hi]
    rfl
  · exact (i.allocate_echoes hechoes.site).answer_eq
  · exact (i.invoke_echoes hechoes.site).answer_eq
  · exact (i.tensor_echo hechoes.site id).symm
  · refine Interpreter.profile_invoke_of_unheard fun p' hp' => ?_
    rw [hp] at hp'
    cases hp'
    exact huse
  · refine Interpreter.profile_invoke_of_unheard fun p hp => ?_
    simp [Interpreter.activeProfiler, hoff] at hp

/-- A profiler that counts its calls and fails at every one of them but the odd starts. -/
def flaky : Profiler Nat where
  start _ n := (if n % 2 = 0 then .error (.tooManyEvents n) else .ok n, n + 1)
  stop event n := (.error (.unknownEvent event), n + 1)

/-- A tenant with the flaky profiler moves in, allocates and runs three times. During the second run
somebody else uses the profiler. -/
def flakyActions : List (Action Unit (Bool × Nat)) :=
  [.enter ⟨Graph.Sample.nullIo, Graph.Sample.nullIo_check⟩ fun _ => some (.always { invoke := pure () }),
    .equip 0 ⟨.linear, Strategy.linear_sound⟩ (some flaky.shared) true, .allocate 0, .invoke 0,
    .profile fun c => (true, c.2), .invoke 0, .profile fun c => (false, c.2), .invoke 0]

def flakyStart : Site Unit (Bool × Nat) :=
  .ofBuffer 0 (.replicate 128 0) () (false, 0)

/-- The tenant is where it would be without the profiler, which was called three times. -/
theorem run_ignores_profilers_of_flaky :
    ∃ i, ((start flakyStart).run flakyActions).tenant? 0 = some i ∧
      ((start flakyStart).run flakyActions).site.profile = (false, 3) ∧
      ((start flakyStart.unprofiled).run (flakyActions.map Action.unprofiled)).tenant? 0 =
        some i.unprofiled := by
  have hthere : (((start flakyStart).run flakyActions).tenant? 0).isSome = true := by
    decide +kernel
  obtain ⟨i, hi⟩ := Option.isSome_iff_exists.mp hthere
  have hprofile : ((start flakyStart).run flakyActions).site.profile = (false, 3) := by
    decide +kernel
  exact ⟨i, hi, hprofile, ((run_ignores_profilers flakyStart flakyActions).2 0 i hi).1⟩

end Tenancy

/-! ## A profiler in use -/

/-- An operator that does nothing, with a profiler that counts. -/
def counted : Interpreter Unit (Bool × Counting) where
  graph := ⟨Graph.Sample.nullIo, Graph.Sample.nullIo_check⟩
  kernels := [{ invoke := pure () }]
  strategy := .linear
  profiler := some Counting.profiler.shared

/-- While somebody uses the profiler an invocation succeeds, runs its operator, and tells the profiler
nothing. -/
theorem counted_in_use_untold :
    counted.profiling = true ∧ counted.graph.operators.length = 1 ∧
      (counted.invoke (.ofBuffer 0 (.replicate 128 0) () (true, {}))).1 = .ok () ∧
      (counted.invoke (.ofBuffer 0 (.replicate 128 0) () (true, {}))).2.2.profile =
        (true, { starts := 0, stops := 0 }) ∧
      (counted.invoke (.ofBuffer 0 (.replicate 128 0) () (false, {}))).2.2.profile =
        (false, { starts := 1, stops := 1 }) := by
  decide +kernel

end TensorArena
