/-!
# Bytes

Runs of bytes, the little-endian words they spell, and their hexadecimal text.
-/

namespace TensorArena

abbrev Bytes := List UInt8

/-- A run of bytes and the address of its first byte. -/
structure Slice where
  address : Nat
  bytes : Bytes
  deriving DecidableEq, Repr

def Slice.empty : Slice :=
  ⟨0, []⟩

namespace Bytes

/-- The number that `bytes` spell, least significant byte first. -/
def toNat : Bytes → Nat
  | [] => 0
  | b :: bs => b.toNat + 256 * toNat bs

/-- The lowest `width` bytes of `n`, least significant first. -/
def ofNat : (width : Nat) → (n : Nat) → Bytes
  | 0, _ => []
  | width + 1, n => UInt8.ofNat (n % 256) :: ofNat width (n / 256)

/-- The words of `width` bytes that `bytes` hold one after another; a shorter rest is left out. -/
def words (width : Nat) (bytes : Bytes) : List Nat :=
  let store := bytes.toArray
  (Array.ofFn fun k : Fin (bytes.length / width) =>
    toNat (store.extract (k * width) (k * width + width)).toList).toList

/-- The bytes of words of `width` bytes, one after another. -/
def ofWords (width : Nat) (ws : List Nat) : Bytes :=
  ws.flatMap (ofNat width)

/-- `bytes` with its first bytes replaced by `new`; what does not fit is left out. -/
def overlay (bytes new : Bytes) : Bytes :=
  new.take bytes.length ++ bytes.drop new.length

def hexDigit (n : Nat) : Char :=
  if n < 10 then Char.ofNat (48 + n) else Char.ofNat (87 + n)

def hex (bytes : Bytes) : String :=
  String.ofList (bytes.flatMap fun b => [hexDigit (b.toNat / 16), hexDigit (b.toNat % 16)])

/-- The value of a hexadecimal digit in either case. -/
def hexValue? (c : Char) : Option Nat :=
  if '0' ≤ c ∧ c ≤ '9' then some (c.toNat - 48)
  else if 'a' ≤ c ∧ c ≤ 'f' then some (c.toNat - 87)
  else if 'A' ≤ c ∧ c ≤ 'F' then some (c.toNat - 55)
  else none

/-- The bytes that pairs of hexadecimal digits spell. -/
def ofHex? : List Char → Option Bytes
  | [] => some []
  | [_] => none
  | high :: low :: rest => do
    let high ← hexValue? high
    let low ← hexValue? low
    some (UInt8.ofNat (16 * high + low) :: (← ofHex? rest))

end Bytes

end TensorArena
