/-!
# Profilers

A profiler is told before and after each operator runs. The first call answers with the number of
an event, the second one closes it. Either may fail; the run goes on regardless.

Others may hold the profiler too. While one of them uses it nobody else can call it, and whoever
wants to has to look first.
-/

namespace TensorArena

/-- Why a profiler did not take a call. -/
inductive ProfilerError where
  | tooManyEvents (most : Nat)
  | unknownEvent (event : Nat)
  deriving DecidableEq, Repr

def ProfilerError.message : ProfilerError → String
  | tooManyEvents most => s!"profiler event table is full ({most} events)"
  | unknownEvent event => s!"unknown profiler event {event}"

/-- The two calls of a profiler, on a state of type `π`, and whether somebody is using it. -/
structure Profiler (π : Type) where
  start : String → π → Except ProfilerError Nat × π
  stop : Nat → π → Except ProfilerError Unit × π
  inUse : π → Bool := fun _ => false

/-! ## Counting calls

A profiler that counts how often it is called and never fails. -/

/-- How many events were started and stopped. -/
structure Counting where
  starts : Nat := 0
  stops : Nat := 0
  deriving DecidableEq, Repr

namespace Counting

/-- Counts a start; events are numbered from zero. -/
def start (c : Counting) : Nat × Counting :=
  (c.starts, { c with starts := c.starts + 1 })

def stop (c : Counting) : Counting :=
  { c with stops := c.stops + 1 }

def profiler : Profiler Counting where
  start _ c := (.ok c.start.1, c.start.2)
  stop _ c := (.ok (), c.stop)

end Counting

end TensorArena
