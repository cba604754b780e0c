import TensorArena.Json.Writer
import TensorArena.Number.Text
import TensorArena.Word

/-!
# Metrics

How long operators and whole invocations took, in nanoseconds, and how much of the arena they used.
-/

namespace TensorArena

def nanosPerSecond : Nat := 1000000000

/-- The timing of one operator run. -/
structure OperatorTime where
  tag : String
  nanos : Nat
  deriving DecidableEq, Repr

/-- What was measured over one or more invocations. -/
structure Metrics where
  total : Nat := 0
  operatorTotal : Nat := 0
  arenaUsed : Nat := 0
  operators : Array OperatorTime := #[]
  invocations : Nat := 0
  deriving DecidableEq, Repr

namespace Metrics

def record (m : Metrics) (tag : String) (nanos : Nat) : Metrics :=
  { m with operatorTotal := m.operatorTotal + nanos, operators := m.operators.push ⟨tag, nanos⟩ }

def finalise (m : Metrics) (total arenaUsed invocations : Nat) : Metrics :=
  { m with total, arenaUsed, invocations }

/-- The operator run that took longest, the last one of several. -/
def slowest? (m : Metrics) : Option OperatorTime :=
  m.operators.foldl (fun best t =>
    match best with
    | some b => if b.nanos ≤ t.nanos then some t else some b
    | none => some t) none

/-- What is left over when seconds and nanoseconds are divided each for themselves. -/
def carried (nanos count : Nat) : Nat :=
  nanos / nanosPerSecond % count * nanosPerSecond + nanos % nanosPerSecond % count

/-- A share of a time: the seconds, and below them the nanoseconds with their share of what was left
over. -/
def share (nanos count : Nat) : Nat :=
  nanos / nanosPerSecond / count * nanosPerSecond +
    (nanos % nanosPerSecond / count + carried nanos count / count)

/-- The mean time of an invocation, rounded down. The divisor is the lower half of the number of
invocations; there is no mean where only that half is zero. -/
def mean? (m : Metrics) : Option Nat :=
  if m.invocations = 0 then some 0
  else
    let divisor := m.invocations % (Word.max32 + 1)
    if divisor = 0 then none else some (share m.total divisor)

/-- A time in seconds, in 64-bit arithmetic. -/
def seconds (nanos : Nat) : Binary :=
  let f := Format.double
  f.add (f.ofNat (nanos / nanosPerSecond))
    (f.div (f.ofNat (nanos % nanosPerSecond)) (f.ofNat nanosPerSecond))

/-- A time in milliseconds with three decimal places. -/
def millisText (nanos : Nat) : String :=
  (Format.double.mul (seconds nanos) (Format.double.ofNat 1000)).fixed 3 ++ "ms"

/-- The percentage of the total time that was spent in kernels. -/
def kernelPercent (m : Metrics) : Binary :=
  let f := Format.double
  if m.total = 0 then f.ofNat 0
  else f.mul (f.div (seconds m.operatorTotal) (seconds m.total)) (f.ofNat 100)

/-- The metrics in one line, where they have a mean. -/
def summary? (m : Metrics) : Option String :=
  m.mean?.map fun mean =>
    let slowest := match m.slowest? with
      | some t => s!", slowest '{t.tag}' {millisText t.nanos}"
      | none => ""
    s!"Invoke: {millisText m.total} total over {m.invocations} invocations " ++
      s!"({millisText mean} each), {m.operators.size} operator runs, " ++
      s!"{millisText m.operatorTotal} in kernels ({m.kernelPercent.fixed 0}%), " ++
      s!"arena {m.arenaUsed} B{slowest}"

def timeToJson (nanos : Nat) : Json :=
  .record [("secs", .nat (nanos / nanosPerSecond)), ("nanos", .nat (nanos % nanosPerSecond))]

def toJson (m : Metrics) : Json :=
  .record [("total_duration", timeToJson m.total),
    ("total_operator_duration", timeToJson m.operatorTotal), ("arena_used_bytes", .nat m.arenaUsed),
    ("operator_metrics", .array (m.operators.toList.map fun t =>
      .record [("tag", .text t.tag), ("duration", timeToJson t.nanos)])),
    ("invocations", .nat m.invocations)]

end Metrics

end TensorArena
