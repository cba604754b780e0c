import TensorArena.Command.Execute

/-!
# The program

Reads the files that the command line names, carries the command out, and prints what it leaves
behind. Log lines go to the error stream, from warnings on, or from lower levels on where that is
asked for.
-/

namespace TensorArena

/-- The error code of reading a directory. -/
def directoryCode : UInt32 := 21

/-- The error code of a name that is too long. -/
def longNameCode : UInt32 := 36

/-- What is found at a path of the file system. -/
def readEntry (path : String) : IO Entry := do
  try
    pure (.file (← IO.FS.readFile path))
  catch
    | .noFileOrDirectory .. => pure .missing
    | .inappropriateType _ code _ =>
      pure (if code = directoryCode then .directory else .notDirectory)
    | e@(.invalidArgument _ code _) =>
      pure (if code = longNameCode then .nameTooLong else .failure (toString e))
    | .permissionDenied .. => pure (.failure "Permission denied (os error 13)")
    | e => pure (.failure (toString e))

/-- The log lines of a level that is asked for so many times. -/
def shown (verbosity : Nat) (log : Log) : Log :=
  log.filter fun l =>
    match l.level with
    | .error | .warn => true
    | .info => 1 ≤ verbosity
    | .debug => 2 ≤ verbosity

def usage : String :=
  "Usage: micro-rt [-c FILE] [-v] inspect -m MODEL\n" ++
  "       micro-rt [-c FILE] [-v] plan -m MODEL [-a SIZE] [-p PLACEMENT] [--json]\n" ++
  "       micro-rt [-c FILE] [-v] run -m MODEL [-a SIZE] [-p PLACEMENT] [-i NUMBERS] " ++
  "[--iterations COUNT]"

/-- Carries out a command line and shows its outcome; a run is timed. -/
def perform (a : Arguments) : IO UInt32 := do
  let entries ← a.paths.mapM fun path => do pure (path, ← readEntry path)
  let files : Files := fun path => ((entries.find? fun e => e.1 = path).map (·.2)).getD .missing
  let start ← IO.monoNanosNow
  let result ← IO.mkRef (a.execute files)
  let outcome ← result.get
  outcome.printed.forM IO.println
  let stop ← IO.monoNanosNow
  match outcome.metrics with
  | some m => (Outcome.metricsLines m (stop - start)).forM IO.println
  | none => pure ()
  (shown a.verbosity outcome.log).forM fun l => IO.eprintln s!"{l.level.label} {l.text}"
  outcome.errorText.forM IO.eprintln
  pure outcome.exitCode.toUInt32

end TensorArena

open TensorArena in
/-- The program. -/
def main (words : List String) : IO UInt32 := do
  match Arguments.read words with
  | .ok a => perform a
  | .error .help =>
    IO.println usage
    pure 0
  | .error .version =>
    IO.println "micro-rt 0.1.0"
    pure 0
  | .error (.misuse e) =>
    IO.eprintln s!"error: {e.message}\n\n{usage}"
    pure 2
