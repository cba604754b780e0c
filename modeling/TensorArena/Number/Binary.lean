import TensorArena.Word

/-!
# Binary floating-point numbers

Numbers of the form `± mantissa · 2 ^ exponent`, and arithmetic on them that is exact up to one
rounding: each operation forms its exact result as a quotient of naturals and rounds it once, to
the nearest number of the format, to the even mantissa when two are equally near. A format fixes
the number of mantissa bits and the range of the exponent.
-/

namespace TensorArena

/-- The quotient rounded to the nearest natural number, to the even one from halfway. -/
def roundDivEven (num den : Nat) : Nat :=
  if 2 * (num % den) < den then num / den
  else if den < 2 * (num % den) then num / den + 1
  else num / den + num / den % 2

/-- The exponent of the greatest power of two that is at most `num / den`, for positive
arguments. -/
def floorLog2 (num den : Nat) : Int :=
  let guess : Int := (num.log2 : Int) - den.log2
  if den * pow2 guess.toNat ≤ num * pow2 (-guess).toNat then guess else guess - 1

/-- How numbers are stored: mantissas below `2 ^ precision`, last places from `2 ^ least` to
`2 ^ greatest`, and words of `width` bits. -/
structure Format where
  precision : Nat
  least : Int
  greatest : Int
  width : Nat
  deriving DecidableEq, Repr

def Format.single : Format :=
  ⟨24, -149, 104, 32⟩

def Format.double : Format :=
  ⟨53, -1074, 971, 64⟩

/-- A floating-point number, an infinity, or the result of an operation that has none. -/
inductive Binary where
  | notANumber
  | infinite (negative : Bool)
  | finite (negative : Bool) (mantissa : Nat) (exponent : Int)
  deriving DecidableEq, Repr

namespace Binary

/-- The numerator and the denominator of `mantissa · 2 ^ exponent`. -/
def ratio (mantissa : Nat) (exponent : Int) : Nat × Nat :=
  (mantissa * pow2 exponent.toNat, pow2 (-exponent).toNat)

def neg : Binary → Binary
  | notANumber => notANumber
  | infinite n => infinite (!n)
  | finite n m e => finite (!n) m e

/-- The number `± mantissa` counted in units of `2 ^ unit`, for a unit that divides its last
place. -/
def scaled (negative : Bool) (mantissa : Nat) (exponent unit : Int) : Int :=
  let size : Int := ((mantissa * pow2 (exponent - unit).toNat : Nat) : Int)
  if negative then -size else size

/-- Whether the first number is below the second; the two zeros are equal, and nothing compares
with a value that is not a number. -/
def lt : Binary → Binary → Bool
  | notANumber, _ | _, notANumber => false
  | infinite n, infinite n' => n && !n'
  | infinite n, finite .. => n
  | finite .., infinite n => !n
  | finite n m e, finite n' m' e' =>
    decide (scaled n m e (min e e') < scaled n' m' e' (min e e'))

/-- Whether the first number is at most the second. -/
def le (a b : Binary) : Bool :=
  match a, b with
  | notANumber, _ | _, notANumber => false
  | _, _ => !(lt b a)

/-- The integer that the number is, if it is one. -/
def toInt? : Binary → Option Int
  | finite n m e =>
    let (num, den) := ratio m e
    if num % den = 0 then
      let size : Int := ((num / den : Nat) : Int)
      some (if n then -size else size)
    else none
  | _ => none

/-- The integer next to the number toward zero, held within bounds; a value that is not a number
becomes zero. -/
def truncate (low high : Int) : Binary → Int
  | notANumber => 0
  | infinite n => if n then low else high
  | finite n m e =>
    let (num, den) := ratio m e
    let size : Int := ((num / den : Nat) : Int)
    max low (min high (if n then -size else size))

end Binary

namespace Format

/-- Rounds `± num / den` to the format. -/
def round (f : Format) (negative : Bool) (num den : Nat) : Binary :=
  if num = 0 then .finite negative 0 f.least
  else
    -- Below the least exponent the number keeps fewer digits.
    let exponent := max (floorLog2 num den - (f.precision - 1 : Nat)) f.least
    let mantissa := roundDivEven (num * pow2 (-exponent).toNat) (den * pow2 exponent.toNat)
    let (mantissa, exponent) :=
      -- Rounding up may have carried into one digit more.
      if mantissa = pow2 f.precision then (pow2 (f.precision - 1), exponent + 1)
      else (mantissa, exponent)
    if f.greatest < exponent then .infinite negative else .finite negative mantissa exponent

/-- The nearest number of the format. -/
def convert (f : Format) : Binary → Binary
  | .finite n m e => let (num, den) := Binary.ratio m e; f.round n num den
  | b => b

/-- The number of the format nearest to a natural number. -/
def ofNat (f : Format) (n : Nat) : Binary :=
  f.round false n 1

def ofInt (f : Format) (i : Int) : Binary :=
  f.round (i < 0) i.natAbs 1

/-- The product. -/
def mul (f : Format) : Binary → Binary → Binary
  | .finite n m e, .finite n' m' e' =>
    let (num, den) := Binary.ratio (m * m') (e + e')
    f.round (n != n') num den
  | .infinite n, .infinite n' => .infinite (n != n')
  | .infinite n, .finite n' m _ | .finite n m _, .infinite n' =>
    if m = 0 then .notANumber else .infinite (n != n')
  | .notANumber, _ | _, .notANumber => .notANumber

/-- The quotient. -/
def div (f : Format) : Binary → Binary → Binary
  | .finite n m e, .finite n' m' e' =>
    if m' = 0 then if m = 0 then .notANumber else .infinite (n != n')
    else
      let (num, den) := Binary.ratio m (e - e')
      f.round (n != n') num (den * m')
  | .finite n _ _, .infinite n' => .finite (n != n') 0 f.least
  | .infinite n, .finite n' _ _ => .infinite (n != n')
  | .infinite _, .infinite _ => .notANumber
  | .notANumber, _ | _, .notANumber => .notANumber

/-- The sum. A sum that is exactly zero is the positive zero unless both terms are negative. -/
def add (f : Format) : Binary → Binary → Binary
  | .finite n m e, .finite n' m' e' =>
    let unit := min e e'
    let sum := Binary.scaled n m e unit + Binary.scaled n' m' e' unit
    if sum = 0 then .finite (n && n') 0 f.least
    else
      let (num, den) := Binary.ratio sum.natAbs unit
      f.round (sum < 0) num den
  | .infinite n, .infinite n' => if n = n' then .infinite n else .notANumber
  | .infinite n, .finite .. | .finite .., .infinite n => .infinite n
  | .notANumber, _ | _, .notANumber => .notANumber

def sub (f : Format) (a b : Binary) : Binary :=
  f.add a b.neg

/-- The exponent field of infinities and of words that are no numbers. -/
def specialField (f : Format) : Nat :=
  (f.greatest - f.least).toNat + 2

/-- The bits of the fraction that is stored beside the exponent field. -/
def fractionBits (f : Format) : Nat :=
  f.precision - 1

/-- The word of a number of the format; anything that is no number has the quiet positive word. -/
def encode (f : Format) (b : Binary) : Nat :=
  let one := pow2 f.fractionBits
  let sign (negative : Bool) := if negative then pow2 (f.width - 1) else 0
  match b with
  | .notANumber => f.specialField * one + pow2 (f.fractionBits - 1)
  | .infinite n => sign n + f.specialField * one
  | .finite n m e => sign n + (if m < one then m else ((e - f.least).toNat + 1) * one + (m - one))

/-- The number that a word stands for. -/
def decode (f : Format) (word : Nat) : Binary :=
  let one := pow2 f.fractionBits
  let sign := pow2 (f.width - 1)
  let negative := sign ≤ word % (2 * sign)
  let field := word % sign / one
  let fraction := word % one
  if field = f.specialField then if fraction = 0 then .infinite negative else .notANumber
  else if field = 0 then .finite negative fraction f.least
  else .finite negative (one + fraction) (f.least + (field - 1 : Nat))

/-- An operation on words. Where an operand is no number the result is that operand made quiet, the
first one if both are; where only the result is none it is the quiet negative word. -/
def onWords (f : Format) (operation : Binary → Binary → Binary) (a b : Nat) : Nat :=
  let quiet (word : Nat) := word ||| pow2 (f.fractionBits - 1)
  match f.decode a, f.decode b with
  | .notANumber, _ => quiet a
  | _, .notANumber => quiet b
  | x, y =>
    match operation x y with
    | .notANumber => pow2 (f.width - 1) + f.encode .notANumber
    | c => f.encode c

end Format

end TensorArena
