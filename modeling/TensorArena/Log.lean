/-!
# Log lines

Operations that report what they did collect lines of four levels, oldest first.
-/

namespace TensorArena

/-- How much a line matters. -/
inductive Level where
  | error
  | warn
  | info
  | debug
  deriving DecidableEq, Repr

def Level.label : Level → String
  | error => "ERROR"
  | warn => "WARN"
  | info => "INFO"
  | debug => "DEBUG"

/-- One reported line. -/
structure LogLine where
  level : Level
  text : String
  deriving DecidableEq, Repr

/-- Reported lines, oldest first. -/
abbrev Log := List LogLine

end TensorArena
