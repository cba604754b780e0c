import TensorArena.Number.Binary
import TensorArena.Text.Basic

/-!
# Reading numbers

The number of a format that is nearest to a decimal, in one exact rounding, and the texts that
denote such a number: digits with an optional point and an optional exponent, or the name of an
infinity or of a value that is no number.
-/

namespace TensorArena

/-- The number of the format nearest to `± digits · 10 ^ power`. A decimal below half of the least
positive number is zero and one past the greatest number is infinite, so that powers far away from
the range of the format are never computed. -/
def Format.ofDecimal (f : Format) (negative : Bool) (digits : Nat) (power : Int) : Binary :=
  let magnitude : Int := (toString digits).length + power
  if digits = 0 ∨ magnitude < f.least - 1 then .finite negative 0 f.least
  else if f.greatest + f.precision < magnitude then .infinite negative
  else f.round negative (digits * pow10 power.toNat) (pow10 (-power).toNat)

namespace Text

/-- The digits at the front of a text, and what follows them. -/
def spanDigits (cs : List Char) : List Char × List Char :=
  (cs.takeWhile isDigit, cs.dropWhile isDigit)

/-- One or more digits with an optional sign. -/
def signedDigits? (cs : List Char) : Option Int :=
  let unsigned (ds : List Char) : Option Nat :=
    if ds ≠ [] ∧ ds.all isDigit then some (digitsValue ds) else none
  match cs with
  | '-' :: ds => (unsigned ds).map fun n => -(n : Int)
  | '+' :: ds => (unsigned ds).map fun n => (n : Int)
  | ds => (unsigned ds).map fun n => (n : Int)

/-- The exponent at the end of a number, zero if there is none. -/
def exponent? : List Char → Option Int
  | [] => some 0
  | 'e' :: cs | 'E' :: cs => signedDigits? cs
  | _ => none

end Text

namespace Binary

/-- Reads digits with an optional point, on at least one side of which digits stand, and an optional
exponent. -/
def ofDigits? (f : Format) (negative : Bool) (cs : List Char) : Option Binary :=
  let (whole, rest) := Text.spanDigits cs
  let (fraction, rest) := match rest with
    | '.' :: rest => Text.spanDigits rest
    | rest => ([], rest)
  if whole = [] ∧ fraction = [] then none
  else
    (Text.exponent? rest).map fun e =>
      f.ofDecimal negative (Text.digitsValue (whole ++ fraction)) (e - fraction.length)

/-- Reads a number without a sign; names may be written in any letter case. -/
def ofUnsigned? (f : Format) (negative : Bool) (cs : List Char) : Option Binary :=
  match String.ofList (cs.map Char.toLower) with
  | "inf" | "infinity" => some (.infinite negative)
  | "nan" => some .notANumber
  | _ => ofDigits? f negative cs

def ofText? (f : Format) (text : String) : Option Binary :=
  match text.toList with
  | '-' :: cs => ofUnsigned? f true cs
  | '+' :: cs => ofUnsigned? f false cs
  | cs => ofUnsigned? f false cs

end Binary

end TensorArena
