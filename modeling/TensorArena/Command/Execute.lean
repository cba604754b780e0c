import TensorArena.Command.Inspect
import TensorArena.Command.Plan
import TensorArena.Command.Run
import TensorArena.Text.Basic

/-!
# Carrying out a command line

What the whole program does with its words and its files: the lines it prints, the text it fails
with, and the measurements that a run leaves to be shown when its time is known.
-/

namespace TensorArena

/-- What a command leaves behind. -/
structure Outcome where
  printed : List String
  failure : Option String
  metrics : Option Metrics
  log : Log

namespace Outcome

def ofReport (report : Report (Option Metrics)) : Outcome :=
  match (ExceptT.run report).run {} with
  | (.ok metrics, p) => ⟨p.printed.toList, none, metrics, p.log⟩
  | (.error e, p) => ⟨p.printed.toList, some e, none, p.log⟩

def metricsLines (m : Metrics) (total : Nat) : List String :=
  let summary := (m.finalise total m.arenaUsed m.invocations).summary?.getD ""
  ["  Metrics:", s!"   {summary}", ""]

/-- What is printed, line by line. -/
def lines (o : Outcome) : List String :=
  o.printed.flatMap Text.lines

def errorText (o : Outcome) : Option String :=
  o.failure.map fun e => s!"Error: {e}"

def exitCode (o : Outcome) : Nat :=
  if o.failure.isSome then 1 else 0

end Outcome

namespace Arguments

/-- Carries out a command line. -/
def execute (a : Arguments) (files : Files) : Outcome :=
  .ofReport <|
    match a.action with
    | .inspect => do
      Report.inspect files a.model
      pure none
    | .plan overrides json => do
      Report.plan files a.model (← Report.config files a.config overrides) json
      pure none
    | .run overrides inputs iterations => do
      let c ← Report.config files a.config overrides
      some <$> Report.run files a.model c inputs iterations

/-- The paths that a command may read: the configuration, the model, and the manifest in it if the
model is a directory. -/
def paths (a : Arguments) : List String :=
  a.config.toList ++ [a.model, Files.join a.model Files.manifestName]

end Arguments

end TensorArena
