import TensorArena.Bytes

/-!
# Writing TOML

A text is written in the first of four forms that can show it as it is: with escapes on one line,
literally on one line, with escapes on several lines, literally on several lines. A text that no
form shows as it is gets escapes, on several lines where it has line breaks.
-/

namespace TensorArena.Toml

/-! ## The form of a text -/

/-- How a text is written. -/
structure Form where
  /-- Characters may be escaped; otherwise every character stands for itself. -/
  escapes : Bool
  /-- The text is between three quotes, and may have line breaks. -/
  long : Bool
  deriving DecidableEq, Repr

/-- Whether a character needs an escape in every form: control characters other than the tabulator
and the line break. -/
def needsEscape (c : Char) : Bool :=
  (c.toNat < 32 && c != '\t' && c != '\n') || c.toNat == 127

/-- The length of the longest run of a character; `run` is the length of the one that ends here. -/
def longestRun (quote : Char) : (run : Nat) → List Char → Nat
  | run, [] => run
  | run, c :: rest =>
    if c = quote then longestRun quote (run + 1) rest else max run (longestRun quote 0 rest)

namespace Form

def quote (f : Form) : Char :=
  if f.escapes then '"' else '\''

/-- How many quotes in a row may stand in a text of this form. -/
def quotesInside (f : Form) : Nat :=
  if f.long then 2 else 0

/-- Whether the form can show a text as it is. A backslash is never shown as it is where it starts
escapes. -/
def shows (f : Form) (cs : List Char) : Bool :=
  !cs.any needsEscape && (f.long || !cs.contains '\n') && (!f.escapes || !cs.contains '\\') &&
    longestRun f.quote 0 cs ≤ f.quotesInside

def ofText (cs : List Char) : Form :=
  (([⟨true, false⟩, ⟨false, false⟩, ⟨true, true⟩, ⟨false, true⟩] : List Form).find?
    fun f => f.shows cs).getD ⟨true, cs.contains '\n'⟩

end Form

/-! ## Escapes -/

/-- The characters that stand for `c` in a text with escapes; over several lines a line break stands
for itself. -/
def escape (long : Bool) (c : Char) : List Char :=
  match c with
  | '\x08' => ['\\', 'b']
  | '\t' => ['\\', 't']
  | '\n' => if long then ['\n'] else ['\\', 'n']
  | '\x0c' => ['\\', 'f']
  | '\r' => ['\\', 'r']
  | '"' => ['\\', '"']
  | '\\' => ['\\', '\\']
  | c =>
    if needsEscape c then
      ['\\', 'u', '0', '0', (Bytes.hexDigit (c.toNat / 16)).toUpper,
        (Bytes.hexDigit (c.toNat % 16)).toUpper]
    else [c]

/-- A text with escapes. A quote stands for itself as long as no more than `f.quotesInside` of them
follow each other; `run` counts the ones just before. -/
def escapeAll (f : Form) : (run : Nat) → List Char → List Char
  | _, [] => []
  | run, '"' :: rest =>
    if run < f.quotesInside then '"' :: escapeAll f (run + 1) rest
    else escape f.long '"' ++ escapeAll f 0 rest
  | _, c :: rest => escape f.long c ++ escapeAll f 0 rest

def quote (s : String) : String :=
  let cs := s.toList
  let f := Form.ofText cs
  let mark := String.ofList (List.replicate (if f.long then 3 else 1) f.quote)
  mark ++ (if cs.contains '\n' then "\n" else "") ++
    String.ofList (if f.escapes then escapeAll f 0 cs else cs) ++ mark

/-! ## Lines -/

def textLine (key value : String) : String :=
  key ++ " = " ++ quote value ++ "\n"

def boolLine (key : String) (value : Bool) : String :=
  key ++ " = " ++ (if value then "true" else "false") ++ "\n"

end TensorArena.Toml
