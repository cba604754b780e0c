import TensorArena.Toml.Basic
import TensorArena.Toml.Quoted
import TensorArena.Toml.Scalar

/-!
# Reading TOML

A reader for documents of version 1.0. Lists and inline tables nest less than eighty deep, and a key
has less than eighty parts. The readers recur on a count of steps; each step takes at least one
character.
-/

namespace TensorArena.Toml

/-- The bound of nesting and of the parts of a key. -/
def maxDepth : Nat := 80

/-- Whether `c` may stand in a key without quotes. -/
def isBare (c : Char) : Bool :=
  Text.isDigit c || ('a' ≤ c && c ≤ 'z') || ('A' ≤ c && c ≤ 'Z') || c == '-' || c == '_'

/-- The input after a comment, if there is one. -/
def skipComment : List Char → List Char
  | '#' :: rest => rest.dropWhile isVisible
  | cs => cs

/-- The input after blanks, line breaks and comments. A comment must end at a line break. -/
def skipLines : (steps : Nat) → List Char → Option (List Char)
  | 0, _ => none
  | steps + 1, cs =>
    match skipSpaces cs with
    | '#' :: rest =>
      match newline? (skipComment ('#' :: rest)) with
      | some rest => skipLines steps rest
      | none => none
    | cs =>
      match newline? cs with
      | some rest => skipLines steps rest
      | none => some cs

/-- The input after the end of a line: blanks, a comment, and a line break or nothing. -/
def endLine (cs : List Char) : Option (List Char) :=
  match skipComment (skipSpaces cs) with
  | [] => some []
  | cs => newline? cs

/-- One part of a key. -/
def keyPart? (cs : List Char) : Option (String × List Char) :=
  match cs with
  | '"' :: rest => basic? (cs.length + 1) rest []
  | '\'' :: rest => literal? rest []
  | cs =>
    match cs.span isBare with
    | ([], _) => none
    | (bare, rest) => some (String.ofList bare, rest)

/-- A key: parts with points between them and blanks around them; those read so far are held in
reverse. -/
def key? : (steps : Nat) → List Char → (sofar : List String) → Option (List String × List Char)
  | 0, _, _ => none
  | steps + 1, cs, sofar =>
    match keyPart? (skipSpaces cs) with
    | none => none
    | some (part, rest) =>
      match skipSpaces rest with
      | '.' :: rest => key? steps rest (part :: sofar)
      | rest =>
        if (part :: sofar).length < maxDepth then some ((part :: sofar).reverse, rest) else none

/-- A key, with its last part apart. -/
def pathAndKey? (cs : List Char) : Option (List String × String × List Char) := do
  let (parts, rest) ← key? (cs.length + 1) cs []
  some (parts.dropLast, ← parts.getLast?, rest)

mutual

/-- A value at a depth of nesting. -/
def value? : (steps : Nat) → (depth : Nat) → List Char → Option (Value × List Char)
  | 0, _, _ => none
  | steps + 1, depth, cs =>
    match cs with
    | '[' :: rest =>
      if maxDepth ≤ depth + 1 then none
      else
        match skipLines steps rest with
        | some (']' :: rest) => some (.other, rest)
        | some rest => items? steps (depth + 1) rest
        | none => none
    | '\x7b' :: rest =>
      if maxDepth ≤ depth + 1 then none
      else
        match skipSpaces rest with
        | '\x7d' :: rest => some (.other, rest)
        | rest => fields? steps (depth + 1) rest []
    | 't' :: 'r' :: 'u' :: 'e' :: rest => some (.bool true, rest)
    | 'f' :: 'a' :: 'l' :: 's' :: 'e' :: rest => some (.bool false, rest)
    -- Numbers and times are checked for their form only.
    | cs =>
      match quoted? cs with
      | some (s, rest) => some (.text s, rest)
      | none => (scalar? cs).map fun rest => (.other, rest)

/-- The items of a list up to its closing bracket. -/
def items? : (steps : Nat) → (depth : Nat) → List Char → Option (Value × List Char)
  | 0, _, _ => none
  | steps + 1, depth, cs =>
    match value? steps depth cs with
    | none => none
    | some (_, rest) =>
      match skipLines steps rest with
      | some (']' :: rest) => some (.other, rest)
      | some (',' :: rest) =>
        match skipLines steps rest with
        | some (']' :: rest) => some (.other, rest)
        | some rest => items? steps depth rest
        | none => none
      | _ => none

/-- The fields of an inline table up to its closing brace. -/
def fields? : (steps : Nat) → (depth : Nat) → List Char → Entries → Option (Value × List Char)
  | 0, _, _, _ => none
  | steps + 1, depth, cs, entries =>
    match pathAndKey? cs with
    | some (path, key, '=' :: rest) =>
      match value? steps depth (skipSpaces rest) with
      | none => none
      | some (v, rest) =>
        match entries.add path key v with
        | none => none
        | some entries =>
          match skipSpaces rest with
          | '\x7d' :: rest => some (.other, rest)
          | ',' :: rest => fields? steps depth rest entries
          | _ => none
    | _ => none

end

/-- A line with a key and its value, for the table at a path. -/
def assign? (current : List String) (root : Entries) (cs : List Char) :
    Option (Entries × List Char) :=
  match pathAndKey? cs with
  | some (path, key, '=' :: rest) => do
    let (v, rest) ← value? (cs.length + 1) 0 (skipSpaces rest)
    let root ← Entries.descend (fun _ entries => entries.add path key v) false current .header root
    some (root, rest)
  | _ => none

/-- A header: the table that it opens, and its path. -/
def header? (root : Entries) : List Char → Option (Entries × List String × List Char)
  | '[' :: '[' :: cs =>
    match pathAndKey? cs with
    | some (path, key, ']' :: ']' :: rest) =>
      (root.openListed path key).map fun root => (root, path ++ [key], rest)
    | _ => none
  | '[' :: cs =>
    match pathAndKey? cs with
    | some (path, key, ']' :: rest) =>
      (root.openTable path key).map fun root => (root, path ++ [key], rest)
    | _ => none
  | _ => none

/-- The lines of a document from somewhere on, for the table at a path. -/
def lines? : (steps : Nat) → (current : List String) → (root : Entries) → List Char →
    Option Entries
  | 0, _, _, _ => none
  | steps + 1, current, root, cs =>
    match skipSpaces cs with
    | [] => some root
    -- The table of a header is the one that the lines after it are for.
    | '[' :: rest =>
      match header? root ('[' :: rest) with
      | some (root, current, rest) =>
        match endLine rest with
        | some rest => lines? steps current root rest
        | none => none
      | none => none
    | cs =>
      match endLine cs with
      | some rest => lines? steps current root rest
      | none =>
        match assign? current root cs with
        | some (root, rest) =>
          match endLine rest with
          | some rest => lines? steps current root rest
          | none => none
        | none => none

/-- Reads a document; a byte order mark may precede it. -/
def read (s : String) : Option Entries :=
  let cs := match s.toList with
    | '\ufeff' :: rest => rest
    | cs => cs
  lines? (cs.length + 1) [] [] cs

end TensorArena.Toml
