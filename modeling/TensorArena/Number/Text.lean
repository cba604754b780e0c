import TensorArena.Number.Shortest

/-!
# Texts of numbers

Two ways to write a binary number without an exponent: with the fewest digits that read back, and
with a fixed number of decimal places.
-/

namespace TensorArena

namespace Decimal

/-- So many zeros. -/
def zeros (n : Nat) : String :=
  String.ofList (List.replicate n '0')

/-- The digits of a natural number with a point `places` digits from the right. -/
def withPoint (n places : Nat) : String :=
  let digits := (toString n).toList
  let digits := List.replicate (places + 1 - digits.length) '0' ++ digits
  let whole := digits.length - places
  if places = 0 then String.ofList digits
  else String.ofList (digits.take whole) ++ "." ++ String.ofList (digits.drop whole)

/-- All digits of the decimal, without an exponent. -/
def positional (d : Decimal) : String :=
  if 0 ≤ d.exponent then toString d.digits ++ zeros d.exponent.toNat
  else withPoint d.digits (-d.exponent).toNat

end Decimal

namespace Binary

def sign (negative : Bool) : String :=
  if negative then "-" else ""

/-- The shortest digits that read back in the format, never with an exponent. -/
def text (f : Format) : Binary → String
  | notANumber => "NaN"
  | infinite n => sign n ++ "inf"
  | finite n m e =>
    if m = 0 then sign n ++ "0" else sign n ++ (Decimal.shortest f true m e).positional

/-- The number rounded to `places` decimal places, to the even digit from halfway. -/
def fixed (places : Nat) : Binary → String
  | notANumber => "NaN"
  | infinite n => sign n ++ "inf"
  | finite n m e =>
    let (num, den) := ratio m e
    sign n ++ Decimal.withPoint (roundDivEven (num * pow10 places) den) places

end Binary

end TensorArena
