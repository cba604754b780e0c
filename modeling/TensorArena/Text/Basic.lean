import TensorArena.Word

/-!
# Text

What is done with text before anything is read from it and when it is laid out: white space at both
ends, lines, columns of a width, and unsigned words in decimal digits.
-/

namespace TensorArena.Text

/-! ## White space -/

/-- The characters with the property White_Space. -/
def isBlank (c : Char) : Bool :=
  let n := c.toNat
  (9 ≤ n && n ≤ 13) || n == 32 || n == 0x85 || n == 0xA0 || n == 0x1680 ||
    (0x2000 ≤ n && n ≤ 0x200A) || n == 0x2028 || n == 0x2029 || n == 0x202F || n == 0x205F ||
    n == 0x3000

def trimLeft (cs : List Char) : List Char :=
  cs.dropWhile isBlank

def trimRight (cs : List Char) : List Char :=
  (cs.reverse.dropWhile isBlank).reverse

def trim (cs : List Char) : List Char :=
  trimRight (trimLeft cs)

/-! ## Lines

A carriage return before a line break belongs to the break. -/

/-- A line without the carriage return that belongs to the break after it. -/
def dropReturn (line : String) : String :=
  if line.endsWith "\r" then String.ofList line.toList.dropLast else line

def lines (text : String) : List String :=
  (text.splitOn "\n").map dropReturn

/-! ## Columns

Text is filled up with blanks to a width counted in characters; longer text stays as it is. -/

def padRight (width : Nat) (text : String) : String :=
  text ++ String.ofList (List.replicate (width - text.length) ' ')

def padLeft (width : Nat) (text : String) : String :=
  String.ofList (List.replicate (width - text.length) ' ') ++ text

def padNat (width : Nat) (n : Nat) : String :=
  padLeft width (toString n)

/-- A text of more than `width` characters is cut and ends in three dots. -/
def shorten (width : Nat) (text : String) : String :=
  if text.length ≤ width then text
  else String.ofList (text.toList.take (width - 3)) ++ "..."

/-! ## Decimal digits -/

def isDigit (c : Char) : Bool :=
  '0' ≤ c && c ≤ '9'

def digitValue (c : Char) : Nat :=
  c.toNat - 48

def digitsValue (cs : List Char) : Nat :=
  cs.foldl (fun n c => 10 * n + digitValue c) 0

def word? (cs : List Char) : Option Nat :=
  if cs ≠ [] ∧ cs.all isDigit ∧ digitsValue cs ≤ Word.max then some (digitsValue cs) else none

/-- A word, after an optional plus sign. -/
def plusWord? : List Char → Option Nat
  | '+' :: cs => word? cs
  | cs => word? cs

end TensorArena.Text
