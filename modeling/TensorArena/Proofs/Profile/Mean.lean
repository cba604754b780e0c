import Mathlib.Tactic.Ring
import TensorArena.Profile.Metrics

/-!
# Mean times

The mean time of an invocation is that of all of them by their number, which is cut off to 32 bits
before it divides. So the mean is right for every number below 2^32. From there on it is never too
small, mostly far too large, and for a multiple of 2^32 there is none.

The division itself loses nothing: what is left of the seconds and of the nanoseconds is divided
together.
-/

namespace TensorArena

/-- A call that changes metrics. -/
inductive MetricsCall where
  | record (tag : String) (nanos : Nat)
  | finalise (total arenaUsed invocations : Nat)

/-- The total time and the number of invocations that were entered last. -/
structure Entered where
  total : Nat := 0
  invocations : Nat := 0

namespace Metrics

def apply (m : Metrics) : MetricsCall → Metrics
  | .record tag nanos => m.record tag nanos
  | .finalise total arenaUsed invocations => m.finalise total arenaUsed invocations

/-- The metrics after some calls. -/
def after (calls : List MetricsCall) : Metrics :=
  calls.foldl apply {}

def enter (e : Entered) : MetricsCall → Entered
  | .record .. => e
  | .finalise total _ invocations => ⟨total, invocations⟩

def entered (calls : List MetricsCall) : Entered :=
  calls.foldl enter {}

/-! ## Shares -/

/-- A time in parts of which all but the last are multiples of the count. -/
theorem split_carried (nanos count : Nat) :
    nanos = count * (nanos / nanosPerSecond / count * nanosPerSecond +
      nanos % nanosPerSecond / count) + carried nanos count := by
  have hseconds := Nat.div_add_mod (nanos / nanosPerSecond) count
  have hbelow := Nat.div_add_mod (nanos % nanosPerSecond) count
  unfold carried
  generalize nanos / nanosPerSecond / count = q, nanos / nanosPerSecond % count = r at *
  generalize nanos % nanosPerSecond / count = q', nanos % nanosPerSecond % count = r' at *
  calc nanos = nanosPerSecond * (nanos / nanosPerSecond) + nanos % nanosPerSecond :=
        (Nat.div_add_mod nanos nanosPerSecond).symm
    _ = nanosPerSecond * (count * q + r) + (count * q' + r') := by rw [hseconds, hbelow]
    _ = count * (q * nanosPerSecond + q') + (r * nanosPerSecond + r') := by ring

theorem share_eq (nanos : Nat) {count : Nat} (hcount : 0 < count) :
    share nanos count = nanos / count := by
  have hsplit := congrArg (· / count) (split_carried nanos count)
  simp only [Nat.mul_add_div hcount] at hsplit
  rw [hsplit, share, Nat.add_assoc]

/-! ## Means -/

theorem after_entered (calls : List MetricsCall) :
    (after calls).total = (entered calls).total ∧
      (after calls).invocations = (entered calls).invocations := by
  -- Recording an operator leaves both numbers alone.
  have hstep : ∀ (m : Metrics) (e : Entered) (call : MetricsCall),
      m.total = e.total ∧ m.invocations = e.invocations →
      (m.apply call).total = (enter e call).total ∧
        (m.apply call).invocations = (enter e call).invocations := by
    intro m e call h
    cases call with
    | record tag nanos => exact h
    | finalise total arenaUsed invocations => exact ⟨rfl, rfl⟩
  suffices hrun : ∀ (m : Metrics) (e : Entered), m.total = e.total ∧ m.invocations = e.invocations →
      (calls.foldl apply m).total = (calls.foldl enter e).total ∧
        (calls.foldl apply m).invocations = (calls.foldl enter e).invocations from
    hrun {} {} ⟨rfl, rfl⟩
  induction calls with
  | nil => exact fun m e h => h
  | cons call rest ih => exact fun m e h => ih _ _ (hstep m e call h)

theorem mean?_eq (m : Metrics) :
    m.mean? = if m.invocations ≠ 0 ∧ Word.max32 + 1 ∣ m.invocations then none
      else some (m.total / (m.invocations % (Word.max32 + 1))) := by
  unfold mean?
  by_cases hzero : m.invocations = 0
  · simp [hzero]
  · by_cases hdvd : Word.max32 + 1 ∣ m.invocations
    · simp [hzero, hdvd, Nat.mod_eq_zero_of_dvd hdvd]
    · have hrest : m.invocations % (Word.max32 + 1) ≠ 0 := fun h => hdvd (Nat.dvd_of_mod_eq_zero h)
      simp [hzero, hdvd, hrest, share_eq m.total (Nat.pos_of_ne_zero hrest)]

theorem isSome_summary? (m : Metrics) : m.summary?.isSome = m.mean?.isSome :=
  Option.isSome_map

/-- After any calls, the mean is the total that was entered last by the number of invocations, rounded
down, as long as the number has 32 bits. A larger number divides by its lower half, which makes the
mean no smaller, and only if that half is zero there is no mean. There is a summary whenever there is
a mean. -/
theorem mean_after (calls : List MetricsCall) :
    let m := after calls
    let e := entered calls
    (e.invocations = 0 → m.mean? = some 0) ∧
      (e.invocations ≤ Word.max32 → m.mean? = some (e.total / e.invocations)) ∧
      (Word.max32 < e.invocations → m.mean? =
        if Word.max32 + 1 ∣ e.invocations then none
        else some (e.total / (e.invocations % (Word.max32 + 1)))) ∧
      (∀ mean, m.mean? = some mean → e.total / e.invocations ≤ mean) ∧
      m.summary?.isSome = m.mean?.isSome := by
  intro m e
  obtain ⟨htotal, hcount⟩ : m.total = e.total ∧ m.invocations = e.invocations := after_entered calls
  have hmean := m.mean?_eq
  rw [htotal, hcount] at hmean
  refine ⟨fun hzero => ?_, fun hsmall => ?_, fun hlarge => ?_, fun mean h => ?_,
    m.isSome_summary?⟩
  · simp [hmean, hzero]
  · have hlt : e.invocations < Word.max32 + 1 := Nat.lt_succ_of_le hsmall
    rw [hmean, if_neg fun h => h.1 (Nat.eq_zero_of_dvd_of_lt h.2 hlt), Nat.mod_eq_of_lt hlt]
  · simp [hmean, Nat.ne_of_gt (Nat.lt_of_le_of_lt (Nat.zero_le _) hlarge)]
  · rw [hmean] at h
    split at h
    · cases h
    · rename_i hnot
      cases h
      by_cases hzero : e.invocations = 0
      · simp [hzero]
      · have hpos : 0 < e.invocations % (Word.max32 + 1) :=
          Nat.pos_of_ne_zero fun h => hnot ⟨hzero, Nat.dvd_of_mod_eq_zero h⟩
        exact Nat.div_le_div_left (Nat.mod_le ..) hpos

/-- Three invocations in two seconds and a nanosecond, after another number had been entered. -/
theorem mean_after_three :
    let calls : List MetricsCall := [.finalise 7 0 0, .record "add" 5, .finalise 2000000001 64 3]
    (entered calls).invocations ≤ Word.max32 ∧
      (after calls).mean? = some ((entered calls).total / (entered calls).invocations) ∧
      (after calls).mean? = some 666666667 := by
  intro calls
  have hsmall : (entered calls).invocations ≤ Word.max32 := by decide
  have hmean := (mean_after calls).2.1 hsmall
  exact ⟨hsmall, hmean, hmean.trans (by decide)⟩

/-- Of 2^32 + 1 invocations in as many nanoseconds each should have taken one, but all of them are the
mean; and one invocation less has no mean at all. -/
theorem mean_of_cut_off :
    (after [.finalise 4294967297 0 4294967297]).mean? = some 4294967297 ∧
      4294967297 / (entered [.finalise 4294967297 0 4294967297]).invocations = 1 ∧
      (after [.finalise 4294967296 0 4294967296]).mean? = none ∧
      (after [.finalise 4294967296 0 4294967296]).summary? = none := by
  refine ⟨by decide, by decide, by decide, ?_⟩
  rw [← Option.not_isSome_iff_eq_none, isSome_summary?]
  decide

end Metrics

end TensorArena
