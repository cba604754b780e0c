import TensorArena.Json.Record
import TensorArena.Text.Basic

/-!
# Arena sizes

The number of bytes that a caller sets aside for an arena, as people write it: `16K`, `2 MB`,
`4096`. Reading removes blanks around the text, takes one suffix off the end and reads the rest as
a word; zero and sizes past the word bound are refused.
-/

namespace TensorArena

/-- A size that was asked for, in bytes. -/
structure ArenaSize where
  bytes : Nat
  deriving DecidableEq, Repr

/-- Why a text is no arena size; each cause keeps the text without the blanks around it. -/
inductive SizeError where
  | notANumber (text : String)
  | overflows (text : String)
  | zero (text : String)
  deriving DecidableEq, Repr

/-- What is wrong with the size, in words. -/
def SizeError.message : SizeError → String
  | notANumber text =>
    s!"invalid arena size: '{text}': expected a number followed by an optional suffix (K, M)"
  | overflows text => s!"invalid arena size: '{text}' overflows"
  | zero text => s!"invalid arena size: '{text}' is zero"

namespace ArenaSize

def kilobyte : Nat := 1024

def megabyte : Nat := 1024 * 1024

def ofKilobytes (n : Nat) : ArenaSize :=
  ⟨n * kilobyte⟩

def ofMegabytes (n : Nat) : ArenaSize :=
  ⟨n * megabyte⟩

def kilobytes (s : ArenaSize) : Nat :=
  s.bytes / kilobyte

/-- Takes the suffix off a text that is given from its end: what stands before the suffix, still
reversed, and the bytes that the suffix counts. The letters may have either case; no letter outside
ASCII has `K`, `M` or `B` as its upper case. -/
def splitSuffix (reversed : List Char) : List Char × Nat :=
  match reversed with
  | c :: rest =>
    match c.toUpper, rest with
    | 'M', _ => (rest, megabyte)
    | 'K', _ => (rest, kilobyte)
    | 'B', d :: before =>
      match d.toUpper with
      | 'M' => (before, megabyte)
      | 'K' => (before, kilobyte)
      | _ => (rest, 1)
    | 'B', [] => (rest, 1)
    | _, _ => (reversed, 1)
  | [] => ([], 1)

/-- Reads a size: blanks, an optional plus sign, digits, blanks, an optional suffix, blanks. -/
def parse (text : String) : Except SizeError ArenaSize :=
  let trimmed := Text.trim text.toList
  let (number, unit) := splitSuffix trimmed.reverse
  match Text.plusWord? (Text.trim number.reverse) with
  | none => .error (.notANumber (String.ofList trimmed))
  | some value =>
    match Word.mul? value unit with
    | none => .error (.overflows (String.ofList trimmed))
    | some 0 => .error (.zero (String.ofList trimmed))
    | some bytes => .ok ⟨bytes⟩

def text (s : ArenaSize) : String :=
  if megabyte ≤ s.bytes ∧ s.bytes % megabyte = 0 then s!"{s.bytes / megabyte} MB"
  else if kilobyte ≤ s.bytes ∧ s.bytes % kilobyte = 0 then s!"{s.bytes / kilobyte} KB"
  else s!"{s.bytes} B"

def toJson (s : ArenaSize) : Json :=
  .record [("bytes", .nat s.bytes)]

def ofJson? (j : Json) : Option ArenaSize := do
  match ← j.slots? ["bytes"] with
  | [bytes] => some ⟨← Json.required Json.word? bytes⟩
  | _ => none

end ArenaSize

end TensorArena
