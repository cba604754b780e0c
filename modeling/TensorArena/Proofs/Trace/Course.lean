import Mathlib.Data.List.Nodup
import TensorArena.Proofs.Trace.Kernel

/-!
# Courses

`Course` describes what a trace can look like while an interpreter is in a state: the marks of the
making come first, then those of the pass, then those of the runs. With the marks of the frees behind
it a course keeps the `Protocol`, which says what one kernel sees: one preparation at most, no
invocation before the whole pass succeeded, and one free, after which it is not called again.
-/

namespace TensorArena

/-- Kernels made for operators, from a number on. -/
def mades (number : Nat) (ops : List Operator) : Trace :=
  (ops.zipIdx number).map fun (op, n) => .made n op.code

/-- That many kernels freed in order. -/
def frees (count : Nat) : Trace :=
  (List.range count).map .freed

/-- What the kernels of these operators have seen when their interpreter is in a state. -/
inductive Course (ops : List Operator) : Lifecycle → Trace → Prop where
  | made : Course ops .created (mades 0 ops)
  /-- The pass failed. -/
  | refused {failed : Bool} {events : Trace} :
      Sweep .prepare 0 ops failed events → Course ops (.failed none) (mades 0 ops ++ events)
  /-- The pass succeeded. -/
  | passed {tables : Tables} :
      Course ops (.allocated tables) (mades 0 ops ++ sweepAll .prepare 0 ops)
  /-- One more run in which no kernel failed; there can be another one. -/
  | ran {tables : Tables} {trace events : Trace} :
      Course ops (.allocated tables) trace → Sweep .invoke 0 ops false events →
        Course ops (.allocated tables) (trace ++ events)
  /-- A run that ended with a kernel that failed; it was the last one. -/
  | broke {tables : Tables} {trace events : Trace} :
      Course ops (.allocated tables) trace → Sweep .invoke 0 ops true events →
        Course ops (.failed (some tables)) (trace ++ events)

/-- Whether a mark is that of a call on a kernel. -/
def Event.isCall (duty : Duty) (number : Nat) : Event → Bool
  | called d n _ => d = duty ∧ n = number
  | _ => false

@[simp]
theorem Event.isCall_called (duty d : Duty) (number n : Nat) (op : Operator) :
    (called d n op).isCall duty number = decide (d = duty ∧ n = number) :=
  rfl

@[simp]
theorem Event.isCall_made (duty : Duty) (number n : Nat) (code : OpCode) :
    (made n code).isCall duty number = false :=
  rfl

@[simp]
theorem Event.isCall_returned (duty d : Duty) (number n : Nat) (well : Bool) :
    (returned d n well).isCall duty number = false :=
  rfl

@[simp]
theorem Event.isCall_freed (duty : Duty) (number n : Nat) :
    (freed n).isCall duty number = false :=
  rfl

/-- A mark of a call is one that was called. -/
theorem Event.eq_called_of_isCall {duty : Duty} {number : Nat} {e : Event}
    (h : e.isCall duty number) : ∃ op, e = .called duty number op := by
  cases e with
  | called d n op =>
    simp only [isCall_called, decide_eq_true_eq] at h
    obtain ⟨rfl, rfl⟩ := h
    exact ⟨op, rfl⟩
  | made | returned | freed => simp at h

/-- What a whole trace says about the kernels of these operators. -/
structure Protocol (ops : List Operator) (trace : Trace) : Prop where
  prepared_once : ∀ n, trace.countP (Event.isCall .prepare n) ≤ 1
  /-- No kernel is invoked before all were prepared, each of them well. -/
  invoked_after : ∀ pre n op post, trace = pre ++ .called .invoke n op :: post →
    mades 0 ops ++ sweepAll .prepare 0 ops <+: pre
  freed_once : ∀ n < ops.length, trace.count (.freed n) = 1
  /-- After a kernel was freed nothing happens but that later ones are freed. -/
  freed_last : ∀ pre n post, trace = pre ++ .freed n :: post → ∀ e ∈ post, ∃ m, n < m ∧ e = .freed m

/-! ## What courses say -/

theorem called_notMem_mades {duty : Duty} {n number : Nat} {op : Operator} {ops : List Operator} :
    .called duty n op ∉ mades number ops := by
  simp [mades]

theorem Sweep.freed_notMem {duty : Duty} {number n : Nat} {ops : List Operator} {failed : Bool}
    {events : Trace} (h : Sweep duty number ops failed events) : .freed n ∉ events := by
  induction h with
  | stop => exact List.not_mem_nil
  | well _ ih => simp [ih]
  | ill => simp

/-- A sweep calls no kernel twice. -/
theorem Sweep.countP_le {duty duty' : Duty} {number n : Nat} {ops : List Operator} {failed : Bool}
    {events : Trace} (h : Sweep duty number ops failed events) : events.countP (Event.isCall duty' n) ≤ 1 := by
  induction h with
  | stop => exact Nat.zero_le _
  | @well number op rest _ events hrest ih =>
    by_cases hn : number = n
    · -- The calls that follow are on later kernels.
      have hlater : events.countP (Event.isCall duty' n) = 0 := by
        refine List.countP_eq_zero.mpr fun e he hcall => ?_
        obtain ⟨op', rfl⟩ := Event.eq_called_of_isCall hcall
        obtain ⟨-, hle, -⟩ := hrest.called_lt he
        omega
      rw [List.countP_cons, List.countP_cons, hlater]
      by_cases hd : duty = duty'
      · simp [hd, hn]
      · simp [hd]
    · simp [hn, ih]
  | @ill number op rest =>
    by_cases hn : duty = duty' ∧ number = n
    · simp [hn]
    · simp [hn]

theorem Sweep.countP_eq_zero {duty duty' : Duty} (hne : duty ≠ duty') {number n : Nat}
    {ops : List Operator} {failed : Bool} {events : Trace} (h : Sweep duty number ops failed events) :
    events.countP (Event.isCall duty' n) = 0 := by
  refine List.countP_eq_zero.mpr fun e he hcall => ?_
  obtain ⟨op, rfl⟩ := Event.eq_called_of_isCall hcall
  exact hne (h.called_lt he).1.symm

namespace Course

variable {ops : List Operator} {state : Lifecycle} {trace : Trace}

theorem freed_notMem (h : Course ops state trace) (n : Nat) : .freed n ∉ trace := by
  have hmades : Event.freed n ∉ mades 0 ops := by
    simp [mades]
  induction h with
  | made => exact hmades
  | refused hsweep => simp [hmades, hsweep.freed_notMem]
  | passed => simp [hmades, (sweep_sweepAll ..).freed_notMem]
  | ran _ hsweep ih => simp [ih, hsweep.freed_notMem]
  | broke _ hsweep ih => simp [ih, hsweep.freed_notMem]

theorem prepared_once (h : Course ops state trace) (n : Nat) :
    trace.countP (Event.isCall .prepare n) ≤ 1 := by
  have hmades : (mades 0 ops).countP (Event.isCall .prepare n) = 0 := by
    simp [mades, List.countP_eq_zero]
  induction h with
  | made => exact Nat.le_trans (Nat.le_of_eq hmades) (Nat.zero_le _)
  | refused hsweep =>
    rw [List.countP_append, hmades, Nat.zero_add]
    exact hsweep.countP_le
  | passed =>
    rw [List.countP_append, hmades, Nat.zero_add]
    exact (sweep_sweepAll ..).countP_le
  | ran _ hsweep ih =>
    rw [List.countP_append, hsweep.countP_eq_zero (by decide)]
    exact ih
  | broke _ hsweep ih =>
    rw [List.countP_append, hsweep.countP_eq_zero (by decide)]
    exact ih

theorem eq_of_created (h : Course ops .created trace) : trace = mades 0 ops := by
  generalize hstate : Lifecycle.created = state at h
  cases h with
  | made => rfl
  | refused | passed | ran | broke => cases hstate

/-- The trace of an allocated interpreter begins with the marks of a pass that succeeded. -/
theorem prefix_of_allocated {tables : Tables} (h : Course ops (.allocated tables) trace) :
    mades 0 ops ++ sweepAll .prepare 0 ops <+: trace := by
  generalize hstate : Lifecycle.allocated tables = state at h
  induction h with
  | made | refused | broke => cases hstate
  | passed => exact List.prefix_rfl
  | ran _ _ ih => exact (ih hstate).trans (List.prefix_append ..)

/-- A member of two parts lies in the first part, or all of the first part stands before it. -/
theorem split_append {α : Type} {a b pre post : List α} {x : α} (h : a ++ b = pre ++ x :: post) :
    (∃ rest, a = pre ++ x :: rest) ∨ ∃ mid, pre = a ++ mid ∧ b = mid ++ x :: post := by
  rcases List.append_eq_append_iff.mp h with ⟨mid, rfl, hb⟩ | ⟨mid, rfl, hx⟩
  · exact .inr ⟨mid, rfl, hb⟩
  · cases mid with
    | nil => exact .inr ⟨[], by simp, by simpa using hx.symm⟩
    | cons y mid =>
      cases hx
      exact .inl ⟨mid, rfl⟩

theorem invoked_after (h : Course ops state trace) {pre post : Trace} {n : Nat} {op : Operator}
    (heq : trace = pre ++ .called .invoke n op :: post) :
    mades 0 ops ++ sweepAll .prepare 0 ops <+: pre := by
  have hmem : ∀ {a b post : Trace}, a = b ++ .called .invoke n op :: post →
      Event.called .invoke n op ∈ a := fun h => by simp [h]
  have hnone : ∀ {failed : Bool} {events : Trace}, Sweep .prepare 0 ops failed events →
      Event.called .invoke n op ∉ mades 0 ops ++ events := by
    intro failed events hsweep hin
    rcases List.mem_append.mp hin with hin | hin
    · exact called_notMem_mades hin
    · cases (hsweep.called_lt hin).1
  -- The call is in the last run, and what was before it began with the pass, or it is earlier.
  have hrun : ∀ {tables : Tables} {trace events post : Trace}, Course ops (.allocated tables) trace →
      (∀ {post}, trace = pre ++ .called .invoke n op :: post →
        mades 0 ops ++ sweepAll .prepare 0 ops <+: pre) →
      trace ++ events = pre ++ .called .invoke n op :: post →
      mades 0 ops ++ sweepAll .prepare 0 ops <+: pre := by
    intro tables trace events post hc ih heq
    rcases split_append heq with ⟨rest, h⟩ | ⟨mid, rfl, -⟩
    · exact ih h
    · exact hc.prefix_of_allocated.trans (List.prefix_append ..)
  induction h generalizing post with
  | made => exact absurd (hmem heq) called_notMem_mades
  | refused hsweep => exact absurd (hmem heq) (hnone hsweep)
  | passed => exact absurd (hmem heq) (hnone (sweep_sweepAll ..))
  | ran hc _ ih => exact hrun hc ih heq
  | broke hc _ ih => exact hrun hc ih heq

/-- A course keeps the protocol once all its kernels are freed. -/
theorem protocol (h : Course ops state trace) : Protocol ops (trace ++ frees ops.length) where
  prepared_once n := by
    have hfrees : (frees ops.length).countP (Event.isCall .prepare n) = 0 := by
      simp [frees, List.countP_eq_zero]
    rw [List.countP_append, hfrees]
    exact h.prepared_once n
  invoked_after pre n op post heq := by
    rcases split_append heq with ⟨rest, h'⟩ | ⟨mid, -, h'⟩
    · exact h.invoked_after h'
    · have hmem : Event.called .invoke n op ∈ frees ops.length := by simp [h']
      simp [frees] at hmem
  freed_once n hn := by
    have hnodup : (frees ops.length).Nodup :=
      List.Nodup.map (fun _ _ heq => Event.freed.inj heq) List.nodup_range
    rw [List.count_append, List.count_eq_zero.mpr (h.freed_notMem n), Nat.zero_add]
    exact List.count_eq_one_of_mem hnodup (List.mem_map.mpr ⟨n, List.mem_range.mpr hn, rfl⟩)
  freed_last pre n post heq := by
    rcases split_append heq with ⟨rest, h'⟩ | ⟨mid, -, h'⟩
    · exact absurd (by simp [h']) (h.freed_notMem n)
    · have hsorted : (frees ops.length).Pairwise fun a b => ∃ k m, k < m ∧ a = .freed k ∧
          b = .freed m :=
        List.pairwise_map.mpr (List.pairwise_lt_range.imp fun hlt => ⟨_, _, hlt, rfl, rfl⟩)
      rw [h'] at hsorted
      intro e he
      obtain ⟨k, m, hlt, hk, rfl⟩ :=
        (List.pairwise_cons.mp (List.pairwise_append.mp hsorted).2.1).1 e he
      cases hk
      exact ⟨m, hlt, rfl⟩

end Course

end TensorArena
