import TensorArena.Number.Binary
import TensorArena.Text.Basic

/-!
# Numbers and times in TOML

The grammar of integers, floats, dates and times. A reader takes a text from the front and gives
what is left; what the number or time is does not matter, apart from its being in range: integers
have 64 bits, days exist in their month, and a float is not so large that it becomes infinite.
-/

namespace TensorArena.Toml

/-- A hexadecimal, octal or binary digit, by its base. -/
def digitIn? (base : Nat) (c : Char) : Option Nat :=
  let value :=
    if Text.isDigit c then some (Text.digitValue c)
    else if 'a' ≤ c ∧ c ≤ 'f' then some (c.toNat - 87)
    else if 'A' ≤ c ∧ c ≤ 'F' then some (c.toNat - 55)
    else none
  value.filter (· < base)

/-- Whether `c` is a digit of the base. -/
def isDigitIn (base : Nat) (c : Char) : Bool :=
  (digitIn? base c).isSome

/-- The rest of a run of digits, in which single underscores may stand between two digits. The
digits so far are held in reverse. -/
def moreDigits (base : Nat) (sofar : List Char) : List Char → List Char × List Char
  | '_' :: c :: rest =>
    if isDigitIn base c then moreDigits base (c :: sofar) rest
    else (sofar.reverse, '_' :: c :: rest)
  | c :: rest =>
    if isDigitIn base c then moreDigits base (c :: sofar) rest
    else (sofar.reverse, c :: rest)
  | [] => (sofar.reverse, [])

/-- A run of at least one digit. -/
def digits? (base : Nat) : List Char → Option (List Char × List Char)
  | c :: rest => if isDigitIn base c then some (moreDigits base [c] rest) else none
  | [] => none

/-- The number that digits of a base denote. -/
def valueIn (base : Nat) (ds : List Char) : Nat :=
  ds.foldl (fun n c => base * n + (digitIn? base c).getD 0) 0

/-- A sign, if there is one. -/
def sign : List Char → Bool × List Char
  | '+' :: rest => (false, rest)
  | '-' :: rest => (true, rest)
  | cs => (false, cs)

/-- Decimal digits that start with no zero, or one zero. -/
def wholeDigits? : List Char → Option (List Char × List Char)
  | '0' :: rest => some (['0'], rest)
  | cs => digits? 10 cs

/-- An integer. -/
def integer? (cs : List Char) : Option (List Char) :=
  let radix (base : Nat) (cs : List Char) : Option (List Char) := do
    let (ds, rest) ← digits? base cs
    if valueIn base ds ≤ Word.maxSigned then some rest else none
  match cs with
  | '0' :: 'x' :: rest => radix 16 rest
  | '0' :: 'o' :: rest => radix 8 rest
  | '0' :: 'b' :: rest => radix 2 rest
  | cs => do
    let (negative, cs) := sign cs
    let (ds, rest) ← wholeDigits? cs
    if valueIn 10 ds ≤ Word.maxSigned + (if negative then 1 else 0) then some rest else none

/-- Whether digits scaled by a power of ten round to an infinity. -/
def overflows (ds : List Char) (power : Int) : Bool :=
  let n := valueIn 10 ds
  let length : Int := (toString n).length
  if n = 0 ∨ length + power < 300 then false
  else if 320 < length + power then true
  else
    match Format.double.round false (n * pow10 power.toNat) (pow10 (-power).toNat) with
    | .infinite _ => true
    | _ => false

/-- The exponent of a float. -/
def exponent? : List Char → Option (Int × List Char)
  | c :: rest =>
    if c = 'e' ∨ c = 'E' then do
      let (negative, rest) := sign rest
      let (ds, rest) ← digits? 10 rest
      let size : Int := valueIn 10 ds
      some (if negative then -size else size, rest)
    else none
  | [] => none

def fraction? : List Char → Option (List Char × List Char)
  | '.' :: rest => digits? 10 rest
  | _ => none

/-- A float: digits with a fraction, an exponent or both, or one of the two names. -/
def float? (cs : List Char) : Option (List Char) :=
  let (negative, cs) := sign cs
  match cs with
  | 'i' :: 'n' :: 'f' :: rest => some rest
  | 'n' :: 'a' :: 'n' :: rest => some rest
  | cs => do
    let (whole, cs) ← wholeDigits? cs
    let (fraction, power, rest) ←
      match fraction? cs with
      | some (fraction, rest) =>
        match exponent? rest with
        | some (power, rest) => some (fraction, power, rest)
        | none => some (fraction, 0, rest)
      | none => (exponent? cs).map fun (power, rest) => ([], power, rest)
    if ¬ negative ∧ overflows (whole ++ fraction) (power - fraction.length) then none else some rest

/-- A number of exactly `count` digits. -/
def fixedDigits? (count : Nat) (cs : List Char) : Option (Nat × List Char) :=
  let ds := cs.take count
  if ds.length = count ∧ ds.all Text.isDigit then some (Text.digitsValue ds, cs.drop count)
  else none

def expect? (c : Char) : List Char → Option (List Char)
  | d :: rest => if d = c then some rest else none
  | [] => none

def daysIn (year month : Nat) : Nat :=
  if month = 2 then
    if year % 4 = 0 ∧ (year % 100 ≠ 0 ∨ year % 400 = 0) then 29 else 28
  else if month = 4 ∨ month = 6 ∨ month = 9 ∨ month = 11 then 30
  else 31

/-- A date. -/
def date? (cs : List Char) : Option (List Char) := do
  let (year, cs) ← fixedDigits? 4 cs
  let cs ← expect? '-' cs
  let (month, cs) ← fixedDigits? 2 cs
  let cs ← expect? '-' cs
  let (day, cs) ← fixedDigits? 2 cs
  if 1 ≤ month ∧ month ≤ 12 ∧ 1 ≤ day ∧ day ≤ daysIn year month then some cs else none

/-- A time of day, with seconds and an optional fraction of a second. -/
def time? (cs : List Char) : Option (List Char) := do
  let (hour, cs) ← fixedDigits? 2 cs
  let cs ← expect? ':' cs
  let (minute, cs) ← fixedDigits? 2 cs
  let cs ← expect? ':' cs
  let (second, cs) ← fixedDigits? 2 cs
  if hour ≤ 23 ∧ minute ≤ 59 ∧ second ≤ 60 then
    match cs with
    | '.' :: c :: rest => if Text.isDigit c then some (rest.dropWhile Text.isDigit) else some cs
    | cs => some cs
  else none

/-- The distance to universal time. -/
def zone? : List Char → Option (List Char)
  | c :: rest =>
    if c = 'Z' ∨ c = 'z' then some rest
    else if c = '+' ∨ c = '-' then do
      let (hour, rest) ← fixedDigits? 2 rest
      let rest ← expect? ':' rest
      let (minute, rest) ← fixedDigits? 2 rest
      if hour ≤ 23 ∧ minute ≤ 59 then some rest else none
    else none
  | [] => none

/-- A date with or without a time, or a time. -/
def moment? (cs : List Char) : Option (List Char) :=
  match date? cs with
  | none => time? cs
  | some afterDate =>
    match afterDate with
    | c :: rest =>
      if c = 'T' ∨ c = 't' ∨ c = ' ' then
        match time? rest with
        | some afterTime => some ((zone? afterTime).getD afterTime)
        | none => some afterDate
      else some afterDate
    | [] => some afterDate

/-- A number or a time. -/
def scalar? (cs : List Char) : Option (List Char) :=
  match moment? cs with
  | some rest => some rest
  | none =>
    match float? cs with
    | some rest => some rest
    | none => integer? cs

end TensorArena.Toml
