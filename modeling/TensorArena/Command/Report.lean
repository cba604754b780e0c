import TensorArena.Command.Arguments
import TensorArena.Command.Files
import TensorArena.Interpreter.Basic
import TensorArena.Kernel.Registry
import TensorArena.Text.Basic

/-!
# Reports

A command prints lines while it works and may give up on the way; what it printed before stays. This
module holds the lines so far and what all commands have in common: the heading, the configuration
and the model.
-/

namespace TensorArena

/-- The lines that a command has printed, and its log. -/
structure Progress where
  printed : Array String := #[]
  log : Log := []

/-- Steps of a command; an error is the text that it gives up with. -/
abbrev Report (α : Type) := ExceptT String (StateM Progress) α

namespace Report

def say (line : String) : Report Unit :=
  modify fun p => { p with printed := p.printed.push line }

def sayAll (lines : List String) : Report Unit :=
  modify fun p => { p with printed := p.printed ++ lines }

def note (log : Log) : Report Unit :=
  modify fun p => { p with log := p.log ++ log }

/-- A result that is needed to go on. -/
def need (message : ε → String) (result : Except ε α) : Report α :=
  liftExcept (result.mapError message)

/-- A result that an interpreter must deliver, with what its site has logged. -/
def perform (message : ε → String) (step : Except ε α × Site σ π) : Report (α × Site σ π) := do
  let (result, site) := step
  note site.log
  let a ← need message result
  pure (a, { site with log := [] })

def headingWidth : Nat := 54

/-- Prints the heading of a command: its title in a box. -/
def heading (title : String) : Report Unit :=
  let bar := String.ofList (List.replicate headingWidth '═')
  let title := Text.padRight headingWidth s!"              micro-rt · {title}"
  sayAll [s!"╔{bar}╗", s!"║{title}║", s!"╚{bar}╝", ""]

def model (files : Files) (path : String) : Report CheckedGraph := do
  let (log, result) := files.loadModel path
  note log
  need (fun e => s!"failed to load model from '{path}': {e.message}") result

/-- The configuration: the one at the path, if there is one, with what goes before it. -/
def config (files : Files) (path : Option String) (overrides : Overrides) : Report Config := do
  let c ← match path with
    | none => pure {}
    | some path => need ConfigError.message (files.loadConfig path)
  let c : Config :=
    { c with
      arenaSize := overrides.arenaSize.getD c.arenaSize
      placement := overrides.placement.getD c.placement }
  note [⟨.debug, s!"effective config:\n{c.text}"⟩]
  pure c

/-- A configured interpreter of a model, with the sample kernels. -/
def interpreter (g : CheckedGraph) (c : Config) (site : Site Unit π) :
    Report (Interpreter Unit π × Site Unit π) := do
  let (i, site) ← perform SetupError.message
    (Interpreter.create g (Registry.samples id).resolver site)
  perform ConfigError.message (i.configure c site)

end Report

/-- An arena over a buffer of zeros. -/
def ArenaSize.arena (s : ArenaSize) : Arena :=
  Arena.ofBuffer 0 (.replicate s.bytes 0)

end TensorArena
