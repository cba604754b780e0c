import TensorArena.Number.Text
import TensorArena.Text.Basic

/-!
# Numbers as JSON writes them

A numeral keeps the digits of a number apart: sign, whole part, fraction, exponent. It stands for a
word only if it is written as one, without sign, fraction and exponent. As a double it is read in
one step: the leading digits that form a 64-bit word are converted, and the result is multiplied
with, or divided by, one power of ten. A number too large for a double is refused.
-/

namespace TensorArena

/-- A number as it is written; the fraction is empty where no point is written. -/
structure Numeral where
  negative : Bool
  whole : List Char
  fraction : List Char
  exponent : Option Int
  deriving DecidableEq, Repr

namespace Numeral

def ofNat (n : Nat) : Numeral :=
  ⟨false, (toString n).toList, [], none⟩

/-- The numeral as text; the exponent always has a sign. -/
def text (n : Numeral) : String :=
  Binary.sign n.negative ++ String.ofList n.whole ++
    (if n.fraction.isEmpty then "" else "." ++ String.ofList n.fraction) ++
    (match n.exponent with
      | none => ""
      | some e => "e" ++ (if 0 ≤ e then "+" else "") ++ toString e)

def word? (n : Numeral) : Option Nat :=
  if n.negative ∨ n.fraction ≠ [] ∨ n.exponent ≠ none then none else Text.word? n.whole

/-- Appends decimal digits to a number as long as it stays a word; gives the number and the digits
that were left. -/
def absorb (n : Nat) : List Char → Nat × List Char
  | [] => (n, [])
  | c :: rest =>
    if 10 * n + Text.digitValue c ≤ Word.max then absorb (10 * n + Text.digitValue c) rest
    else (n, c :: rest)

/-- Scales a double by a power of ten. Powers that no double holds are reached in steps. -/
def scale (b : Binary) (power : Int) : Option Binary :=
  let f := Format.double
  if 0 ≤ power then
    match b with
    | .finite _ 0 _ => some b
    | _ =>
      if 308 < power then none
      else
        match f.mul b (f.ofNat (pow10 power.toNat)) with
        | .finite n m e => some (.finite n m e)
        | _ => none
  else if power < -308 then
    match b with
    | .finite _ 0 _ => some b
    | _ => scale (f.div b (f.ofNat (pow10 308))) (power + 308)
  else some (f.div b (f.ofNat (pow10 power.natAbs)))
termination_by power.natAbs

/-- The double that the numeral is read as. -/
def double? (n : Numeral) : Option Binary :=
  let (leading, wholeRest) := absorb 0 n.whole
  let (leading, fractionRest) := absorb leading n.fraction
  let power : Int :=
    (wholeRest.length : Int) - ((n.fraction.length - fractionRest.length : Nat) : Int) +
      n.exponent.getD 0
  (scale (Format.double.ofNat leading) power).map fun b => if n.negative then b.neg else b

end Numeral

/-- The numeral of a double: the shortest digits that read back, with a point or an exponent. -/
def Binary.numeral? : Binary → Option Numeral
  | .finite n m e =>
    let d : Decimal := if m = 0 then ⟨0, 0⟩ else Decimal.shortest .double false m e
    let digits := (toString d.digits).toList
    let point : Int := digits.length + d.exponent
    if 0 ≤ d.exponent ∧ point ≤ 16 then
      some ⟨n, digits ++ List.replicate d.exponent.toNat '0', ['0'], none⟩
    else if 0 < point ∧ point ≤ 16 then
      some ⟨n, digits.take point.toNat, digits.drop point.toNat, none⟩
    else if -5 < point ∧ point ≤ 0 then
      some ⟨n, ['0'], List.replicate (-point).toNat '0' ++ digits, none⟩
    else some ⟨n, digits.take 1, digits.drop 1, some (point - 1)⟩
  | _ => none

end TensorArena
