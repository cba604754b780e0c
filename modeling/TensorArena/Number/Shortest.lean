import TensorArena.Number.Binary

/-!
# Shortest decimals

The decimal with the fewest digits that reads back as a given binary number: the decimal grids
`10 ^ k` are tried from coarse to fine, and on each only the two neighbours of the number can lie
in the interval of values that round to it. The ends of the interval belong to it when the mantissa
is even. Of two hits the nearer one is taken.
-/

namespace TensorArena

/-- A natural number times a power of ten. -/
structure Decimal where
  digits : Nat
  exponent : Int
  deriving DecidableEq, Repr

namespace Decimal

/-- The neighbours of `mantissa · 2 ^ exponent` on the grid `10 ^ k`, if one of them reads back.
The number and the ends of its interval are counted in quarters of its last place, times `p / q` to
give grid steps; `tieUp` says which of two equally near hits wins. -/
def onGrid? (f : Format) (tieUp : Bool) (mantissa : Nat) (exponent k : Int) : Option Nat :=
  let p := pow2 (exponent - 2).toNat * pow10 (-k).toNat
  let q := pow2 (2 - exponent).toNat * pow10 k.toNat
  let value := 4 * mantissa * p
  let narrow := mantissa = pow2 (f.precision - 1) ∧ f.least < exponent
  let low := (4 * mantissa - if narrow then 1 else 2) * p
  let high := (4 * mantissa + 2) * p
  let reads (d : Nat) : Bool :=
    if mantissa % 2 = 0 then low ≤ d * q ∧ d * q ≤ high else low < d * q ∧ d * q < high
  let below := value / q
  let above := below + 1
  match reads below, reads above with
  | false, false => none
  | true, false => some below
  | false, true => some above
  | true, true =>
    let down := value - below * q
    let up := above * q - value
    if down < up ∨ (down = up ∧ !tieUp ∧ below % 2 = 0) then some below else some above

/-- Tries the grids from `10 ^ k` down. -/
def descend (f : Format) (tieUp : Bool) (mantissa : Nat) (exponent : Int) :
    (steps : Nat) → (k : Int) → Decimal
  | 0, k => ⟨(onGrid? f tieUp mantissa exponent k).getD 0, k⟩
  | steps + 1, k =>
    match onGrid? f tieUp mantissa exponent k with
    | some d => ⟨d, k⟩
    | none => descend f tieUp mantissa exponent steps (k - 1)

/-- A power of ten that is above `mantissa · 2 ^ exponent`, by at most three digits. -/
def ceiling (mantissa : Nat) (exponent : Int) : Int :=
  (exponent + mantissa.log2 + 1) * 30103 / 100000 + 2

/-- The shortest decimal of a positive number. -/
def shortest (f : Format) (tieUp : Bool) (mantissa : Nat) (exponent : Int) : Decimal :=
  descend f tieUp mantissa exponent 24 (ceiling mantissa exponent)

end Decimal

end TensorArena
