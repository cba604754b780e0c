import TensorArena.Bytes
import TensorArena.Json.Basic

/-!
# Reading JSON

A reader for the grammar of JSON, with blanks only where the grammar has them, no control
characters in texts and nothing after the value. Half a surrogate pair is read as a text without
characters. The reader recurs on a count of steps; every step takes at least one character, so the
length of the input is enough.
-/

namespace TensorArena.Json

/-- The four blanks of JSON. -/
def isSpace (c : Char) : Bool :=
  c == ' ' || c == '\n' || c == '\t' || c == '\r'

/-- The input without leading blanks. -/
def skipSpaces (cs : List Char) : List Char :=
  cs.dropWhile isSpace

/-- Four hexadecimal digits. -/
def hex4? : List Char → Option (Nat × List Char)
  | a :: b :: c :: d :: rest => do
    let a ← Bytes.hexValue? a
    let b ← Bytes.hexValue? b
    let c ← Bytes.hexValue? c
    let d ← Bytes.hexValue? d
    some (((a * 16 + b) * 16 + c) * 16 + d, rest)
  | _ => none

/-- The character that follows a backslash, other than `u`. -/
def unescape? : Char → Option Char
  | '"' => some '"'
  | '\\' => some '\\'
  | '/' => some '/'
  | 'b' => some '\x08'
  | 'f' => some '\x0c'
  | 'n' => some '\n'
  | 'r' => some '\r'
  | 't' => some '\t'
  | _ => none

/-- The character that a pair of surrogates encodes. -/
def ofSurrogates (high low : Nat) : Char :=
  Char.ofNat (0x10000 + (high - 0xD800) * 0x400 + (low - 0xDC00))

/-- The rest of a text after its opening quote. The characters so far are held in reverse; they are
lost with the first half pair. -/
def readText : (steps : Nat) → List Char → (sofar : Option (List Char)) →
    Option (Option String × List Char)
  | 0, _, _ => none
  | steps + 1, cs, sofar =>
    match cs with
    | '"' :: rest => some (sofar.map fun cs => String.ofList cs.reverse, rest)
    | '\\' :: 'u' :: rest =>
      match hex4? rest with
      | none => none
      | some (unit, rest) =>
        if 0xD800 ≤ unit ∧ unit < 0xDC00 then
          match rest with
          | '\\' :: 'u' :: more =>
            match hex4? more with
            | some (low, after) =>
              -- Half a pair spoils the text, but what follows is still read.
              if 0xDC00 ≤ low ∧ low < 0xE000 then
                readText steps after (sofar.map (ofSurrogates unit low :: ·))
              else readText steps rest none
            | none => none
          | _ => readText steps rest none
        else if 0xDC00 ≤ unit ∧ unit < 0xE000 then readText steps rest none
        else readText steps rest (sofar.map (Char.ofNat unit :: ·))
    | '\\' :: c :: rest =>
      match unescape? c with
      | some d => readText steps rest (sofar.map (d :: ·))
      | none => none
    | c :: rest => if c.toNat < 32 then none else readText steps rest (sofar.map (c :: ·))
    | [] => none

/-- The digits at the start of the input, and the rest. -/
def spanDigits (cs : List Char) : List Char × List Char :=
  cs.span Text.isDigit

/-- The whole part of a number: one zero, or digits that start with no zero. -/
def readWhole (cs : List Char) : Option (List Char × List Char) :=
  match spanDigits cs with
  | ([], _) => none
  | ('0' :: _ :: _, _) => none
  | found => some found

/-- The fraction of a number, empty where there is no point. -/
def readFraction : List Char → Option (List Char × List Char)
  | '.' :: cs =>
    match spanDigits cs with
    | ([], _) => none
    | found => some found
  | cs => some ([], cs)

/-- The exponent of a number, where there is one. -/
def readExponent (cs : List Char) : Option (Option Int × List Char) :=
  let digits (negative : Bool) (cs : List Char) : Option (Option Int × List Char) :=
    match spanDigits cs with
    | ([], _) => none
    | (ds, rest) =>
      let size : Int := Text.digitsValue ds
      some (some (if negative then -size else size), rest)
  match cs with
  | c :: rest =>
    if c = 'e' ∨ c = 'E' then
      match rest with
      | '+' :: rest => digits false rest
      | '-' :: rest => digits true rest
      | rest => digits false rest
    else some (none, cs)
  | [] => some (none, cs)

/-- A number. -/
def readNumber (cs : List Char) : Option (Numeral × List Char) := do
  let (negative, cs) := match cs with
    | '-' :: rest => (true, rest)
    | cs => (false, cs)
  let (whole, cs) ← readWhole cs
  let (fraction, cs) ← readFraction cs
  let (exponent, cs) ← readExponent cs
  some (⟨negative, whole, fraction, exponent⟩, cs)

mutual

/-- A value, after blanks. -/
def readValue : (steps : Nat) → List Char → Option (Json × List Char)
  | 0, _ => none
  | steps + 1, cs =>
    match skipSpaces cs with
    | '"' :: rest =>
      match readText steps rest (some []) with
      | some (s, rest) => some (string s, rest)
      | none => none
    | '[' :: rest =>
      match skipSpaces rest with
      | ']' :: rest => some (array [], rest)
      | rest => readItems steps rest []
    | '\x7b' :: rest =>
      match skipSpaces rest with
      | '\x7d' :: rest => some (object [], rest)
      | rest => readFields steps rest []
    | 'n' :: 'u' :: 'l' :: 'l' :: rest => some (null, rest)
    | 't' :: 'r' :: 'u' :: 'e' :: rest => some (bool true, rest)
    | 'f' :: 'a' :: 'l' :: 's' :: 'e' :: rest => some (bool false, rest)
    | cs =>
      match readNumber cs with
      | some (n, rest) => some (number n, rest)
      | none => none

/-- The items of a list up to its closing bracket; those read so far are held in reverse. -/
def readItems : (steps : Nat) → List Char → List Json → Option (Json × List Char)
  | 0, _, _ => none
  | steps + 1, cs, items =>
    match readValue steps cs with
    | none => none
    | some (v, rest) =>
      match skipSpaces rest with
      | ',' :: rest => readItems steps rest (v :: items)
      | ']' :: rest => some (array (v :: items).reverse, rest)
      | _ => none

/-- The fields of an object up to its closing brace; those read so far are held in reverse. -/
def readFields : (steps : Nat) → List Char → List (Option String × Json) →
    Option (Json × List Char)
  | 0, _, _ => none
  | steps + 1, cs, fields =>
    match skipSpaces cs with
    | '"' :: rest =>
      match readText steps rest (some []) with
      | none => none
      | some (key, rest) =>
        match skipSpaces rest with
        | ':' :: rest =>
          match readValue steps rest with
          | none => none
          | some (v, rest) =>
            match skipSpaces rest with
            | ',' :: rest => readFields steps rest ((key, v) :: fields)
            | '\x7d' :: rest => some (object ((key, v) :: fields).reverse, rest)
            | _ => none
        | _ => none
    | _ => none

end

/-- Reads a text that holds one value and blanks around it. -/
def read (s : String) : Option Json :=
  match readValue (s.toList.length + 1) s.toList with
  | some (v, rest) => if (skipSpaces rest).isEmpty then some v else none
  | none => none

end TensorArena.Json
