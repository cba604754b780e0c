import TensorArena.Bytes

/-!
# Texts in TOML

Reading the four kinds of quoted text: with escapes or literally, on one line or on several. The
readers recur on a count of steps; each step takes at least one character.
-/

namespace TensorArena.Toml

/-- Whether a character may stand in a comment or a literal text. -/
def isVisible (c : Char) : Bool :=
  c == '\t' || (32 ≤ c.toNat && c.toNat ≠ 127)

/-- Whether `c` is a blank inside a line. -/
def isSpace (c : Char) : Bool :=
  c == ' ' || c == '\t'

/-- The input without leading blanks of the line. -/
def skipSpaces (cs : List Char) : List Char :=
  cs.dropWhile isSpace

def newline? : List Char → Option (List Char)
  | '\n' :: rest => some rest
  | '\r' :: '\n' :: rest => some rest
  | _ => none

/-- The character whose number is written in so many hexadecimal digits. -/
def codePoint? (count : Nat) (cs : List Char) : Option (Char × List Char) := do
  let ds ← (cs.take count).mapM Bytes.hexValue?
  let n := ds.foldl (fun n d => 16 * n + d) 0
  if ds.length = count ∧ n.isValidChar then some (Char.ofNat n, cs.drop count) else none

/-- The character that an escape stands for, after the backslash. -/
def escape? : List Char → Option (Char × List Char)
  | 'b' :: rest => some ('\x08', rest)
  | 't' :: rest => some ('\t', rest)
  | 'n' :: rest => some ('\n', rest)
  | 'f' :: rest => some ('\x0c', rest)
  | 'r' :: rest => some ('\r', rest)
  | '"' :: rest => some ('"', rest)
  | '\\' :: rest => some ('\\', rest)
  | 'u' :: rest => codePoint? 4 rest
  | 'U' :: rest => codePoint? 8 rest
  | _ => none

/-- The rest of a text with escapes on one line; the characters so far are held in reverse. -/
def basic? : (steps : Nat) → List Char → (sofar : List Char) → Option (String × List Char)
  | 0, _, _ => none
  | steps + 1, cs, sofar =>
    match cs with
    | '"' :: rest => some (String.ofList sofar.reverse, rest)
    | '\\' :: rest =>
      match escape? rest with
      | some (c, rest) => basic? steps rest (c :: sofar)
      | none => none
    | c :: rest => if isVisible c then basic? steps rest (c :: sofar) else none
    | [] => none

def literal? : List Char → (sofar : List Char) → Option (String × List Char)
  | '\'' :: rest, sofar => some (String.ofList sofar.reverse, rest)
  | c :: rest, sofar => if isVisible c then literal? rest (c :: sofar) else none
  | [], _ => none

/-- What a run of quotes inside a text of several lines is: it ends the text where it has three or
more, of which up to two belong to the text. -/
def closing? (quote : Char) (cs sofar : List Char) : Option (String × List Char) :=
  let run := min (cs.takeWhile (· == quote)).length 5
  if run < 3 then none
  else
    some (String.ofList (sofar.reverse ++ List.replicate (run - 3) quote), cs.drop run)

/-- The input without the blanks and line breaks at its start. -/
def skipBlank : List Char → List Char
  | '\n' :: rest => skipBlank rest
  | '\r' :: '\n' :: rest => skipBlank rest
  | c :: rest => if isSpace c then skipBlank rest else c :: rest
  | [] => []

/-- The input after a backslash at the end of a line: all blanks and line breaks are left out. -/
def joinedLine? (cs : List Char) : Option (List Char) :=
  (newline? (skipSpaces cs)).map skipBlank

/-- The rest of a text with escapes on several lines. -/
def longBasic? : (steps : Nat) → List Char → (sofar : List Char) → Option (String × List Char)
  | 0, _, _ => none
  | steps + 1, cs, sofar =>
    match closing? '"' cs sofar with
    | some found => some found
    | none =>
      match newline? cs with
      | some rest => longBasic? steps rest ('\n' :: sofar)
      | none =>
        match cs with
        | '\\' :: rest =>
          match joinedLine? rest with
          | some rest => longBasic? steps rest sofar
          | none =>
            match escape? rest with
            | some (c, rest) => longBasic? steps rest (c :: sofar)
            | none => none
        | c :: rest => if isVisible c then longBasic? steps rest (c :: sofar) else none
        | [] => none

/-- The rest of a literal text on several lines. -/
def longLiteral? : (steps : Nat) → List Char → (sofar : List Char) → Option (String × List Char)
  | 0, _, _ => none
  | steps + 1, cs, sofar =>
    match closing? '\'' cs sofar with
    | some found => some found
    | none =>
      match newline? cs with
      | some rest => longLiteral? steps rest ('\n' :: sofar)
      | none =>
        match cs with
        | c :: rest => if isVisible c then longLiteral? steps rest (c :: sofar) else none
        | [] => none

def skipNewline (cs : List Char) : List Char :=
  (newline? cs).getD cs

/-- A text of any kind. -/
def quoted? (cs : List Char) : Option (String × List Char) :=
  match cs with
  | '"' :: '"' :: '"' :: rest => longBasic? (cs.length + 1) (skipNewline rest) []
  | '\'' :: '\'' :: '\'' :: rest => longLiteral? (cs.length + 1) (skipNewline rest) []
  | '"' :: rest => basic? (cs.length + 1) rest []
  | '\'' :: rest => literal? rest []
  | _ => none

end TensorArena.Toml
