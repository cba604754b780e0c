import TensorArena.Bytes

/-!
# Packed bytes

Constant tensor data is kept in 64-bit words, so that it starts at an address that suits every
element type. The length is kept beside the words; the bytes of the last word past the length are
zero, so two packed values with the same bytes are equal.
-/

namespace TensorArena

/-- Bytes in 64-bit words, least significant byte first. -/
structure Packed where
  words : Array UInt64
  length : Nat
  size_eq : words.size = (length + 7) / 8
  deriving DecidableEq, Repr

namespace Packed

/-- The words that eight bytes at a time spell; the last group may be short. -/
def wordsOf (bytes : Bytes) : Array UInt64 :=
  let store := bytes.toArray
  Array.ofFn fun k : Fin ((bytes.length + 7) / 8) =>
    UInt64.ofNat (Bytes.toNat (store.extract (k * 8) (k * 8 + 8)).toList)

def ofBytes (bytes : Bytes) : Packed where
  words := wordsOf bytes
  length := bytes.length
  size_eq := Array.size_ofFn

def ofElements (width : Nat) (elements : List Nat) : Packed :=
  ofBytes (Bytes.ofWords width elements)

def toBytes (p : Packed) : Bytes :=
  (p.words.toList.flatMap fun w => Bytes.ofNat 8 w.toNat).take p.length

/-- Replaces byte `i`; past the length nothing changes. -/
def setByte (p : Packed) (i : Nat) (b : UInt8) : Packed :=
  if i < p.length then
    { p with
      words := p.words.modify (i / 8) fun w =>
        UInt64.ofNat (Bytes.toNat ((Bytes.ofNat 8 w.toNat).set (i % 8) b))
      size_eq := by rw [Array.size_modify]; exact p.size_eq }
  else p

/-- Replaces the bytes from `start` on, one after another. -/
def write (p : Packed) (start : Nat) : Bytes → Packed
  | [] => p
  | b :: bs => write (p.setByte start b) (start + 1) bs

/-- Whether no byte is held. -/
def isEmpty (p : Packed) : Bool :=
  p.length == 0

/-- The text of the value in diagnostics, which names the length only. -/
def debugText (p : Packed) : String :=
  s!"AlignedBytes \x7b len: {p.length} \x7d"

end Packed

end TensorArena
