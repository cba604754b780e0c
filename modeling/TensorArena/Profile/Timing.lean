import TensorArena.Profile.Basic
import TensorArena.Profile.Metrics

/-!
# Timing operators

A profiler that times every event between its two calls. Events are numbered by their place in the
table of started events, which holds so many at most and is emptied when the metrics are taken.
-/

namespace TensorArena

/-- An event: its tag and the clock at its start, in nanoseconds. -/
structure StartedEvent where
  tag : String
  start : Nat
  deriving DecidableEq, Repr

/-- The started events, how many there can be, and what was measured. -/
structure Timing where
  most : Nat
  started : Array StartedEvent := #[]
  metrics : Metrics := {}
  deriving DecidableEq, Repr

namespace Timing

/-- Starts an event. Its number is its place in the table, in 32 bits. -/
def start (now : Nat) (tag : String) (t : Timing) : Except ProfilerError Nat × Timing :=
  if t.started.size = t.most then (.error (.tooManyEvents t.most), t)
  else (.ok (t.started.size % (Word.max32 + 1)), { t with started := t.started.push ⟨tag, now⟩ })

/-- Measures an event, which stays in the table. -/
def stop (now event : Nat) (t : Timing) : Except ProfilerError Unit × Timing :=
  match t.started[event]? with
  | none => (.error (.unknownEvent event), t)
  | some e => (.ok (), { t with metrics := t.metrics.record e.tag (now - e.start) })

def take (t : Timing) : Metrics × Timing :=
  (t.metrics, { most := t.most })

/-- The timing as a profiler, by a clock that shows `now`. -/
def profiler (now : Nat) : Profiler Timing where
  start tag t := t.start now tag
  stop event t := t.stop now event

end Timing

end TensorArena
