import TensorArena.Arena.Size
import TensorArena.Interpreter.Basic
import TensorArena.Toml.Reader
import TensorArena.Toml.Writer

/-!
# Configuration

What the owner of an interpreter chooses: the size of the arena, the strategy of placement, and
whether operators are profiled. A configuration is a TOML document. Sizes and names of strategies
are kept as they are written and checked only when they are used.
-/

namespace TensorArena

/-- The choices, as they are written. -/
structure Config where
  arenaSize : String := "16K"
  placement : String := "greedy-first-fit"
  profiling : Bool := true
  deriving DecidableEq, Repr

/-- Why a configuration cannot be used. -/
inductive ConfigError where
  | unreadable (path reason : String)
  | unparsable
  | size (cause : SizeError)
  | strategy (cause : PlanError)
  deriving DecidableEq, Repr

/-- The error in words; of a text that is no configuration only the fact is told. -/
def ConfigError.message : ConfigError → String
  | unreadable path reason => s!"configuration error: cannot read config '{path}': {reason}"
  | unparsable => "configuration error: TOML parse error"
  | size cause => s!"configuration error: invalid arena size: {cause.message}"
  | strategy cause => s!"configuration error: {cause.message}"

namespace Config

/-- A text under a key; a key that is missing has the default, where there is one. -/
def textOf (entries : Toml.Entries) (key : String) (default : Option String) : Option String :=
  match entries.find? key with
  | none => default
  | some (.value (.text s)) => some s
  | some _ => none

/-- A truth value under a key; true where the key is missing. -/
def boolOf (entries : Toml.Entries) (key : String) : Option Bool :=
  match entries.find? key with
  | none => some true
  | some (.value (.bool b)) => some b
  | some _ => none

def ofEntries? (entries : Toml.Entries) : Option Config := do
  some {
    arenaSize := ← textOf entries "arena_size" none
    placement := ← textOf entries "placement" (some "greedy-first-fit")
    profiling := ← boolOf entries "enable_profiling" }

def parse (text : String) : Except ConfigError Config :=
  match (Toml.read text).bind ofEntries? with
  | some c => .ok c
  | none => .error .unparsable

def text (c : Config) : String :=
  Toml.textLine "arena_size" c.arenaSize ++ Toml.textLine "placement" c.placement ++
    Toml.boolLine "enable_profiling" c.profiling

def size (c : Config) : Except ConfigError ArenaSize :=
  (ArenaSize.parse c.arenaSize).mapError .size

def strategy (c : Config) : Except ConfigError Strategy :=
  (Strategy.ofName c.placement).mapError .strategy

end Config

/-- Applies the strategy and the profiling switch of a configuration. Where the strategy is unknown
the interpreter is dropped. -/
def Interpreter.configure (i : Interpreter σ π) (c : Config) (s : Site σ π) :
    Except ConfigError (Interpreter σ π) × Site σ π :=
  match c.strategy with
  | .ok strategy => (.ok { i with strategy, profiling := c.profiling }, s)
  | .error e => (.error e, i.drop s)

end TensorArena
