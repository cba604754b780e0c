import TensorArena.Arena.Split
import TensorArena.Interpreter.Error

/-!
# Record tables

An interpreter keeps what it knows about its tensors and operators in the arena itself, as tables of
rows of 32-bit words. A layout says how many bytes a row takes and how it is written and read.
-/

namespace TensorArena

/-- How rows of a kind lie in the arena. -/
structure Layout (α : Type) where
  size : Nat
  encode : α → Bytes
  decode : Bytes → α

def wordBytes (w : UInt32) : Bytes :=
  Bytes.ofNat 4 w.toNat

def wordAt (bytes : Bytes) (start : Nat) : UInt32 :=
  UInt32.ofNat (Bytes.toNat ((bytes.drop start).take 4))

/-- The range of bytes that a buffer got. -/
structure Span where
  offset : UInt32
  length : UInt32
  deriving DecidableEq, Repr

namespace Span

/-- The mark of a tensor without a buffer: an offset that no buffer has. -/
def unplaced : Span :=
  ⟨UInt32.ofNat Word.max32, 0⟩

/-- Whether the span is a buffer's. -/
def IsPlaced (s : Span) : Prop :=
  s.offset ≠ UInt32.ofNat Word.max32

instance (s : Span) : Decidable s.IsPlaced :=
  inferInstanceAs (Decidable (_ ≠ _))

def range (s : Span) : ByteRange :=
  ⟨s.offset.toNat, s.length.toNat⟩

/-- The span of a range that ends within the reach of 32-bit words. -/
def make (offset length : Nat) : Except AllocationError Span :=
  match Word.add? offset length with
  | none => .error (.tableOverflow offset)
  | some stop =>
    if Word.max32 < stop then .error (.tableOverflow stop)
    else .ok ⟨UInt32.ofNat offset, UInt32.ofNat length⟩

/-- A span is two words: offset and length. -/
def layout : Layout Span where
  size := 8
  encode s := wordBytes s.offset ++ wordBytes s.length
  decode bytes := ⟨wordAt bytes 0, wordAt bytes 4⟩

end Span

/-- What an operator acquired while it was prepared: its persistent data, and which rows of the
scratch table are its own. -/
structure OpRow where
  userData : Span
  scratchFirst : UInt32
  scratchCount : UInt32
  deriving DecidableEq, Repr

/-- An operator row is four words: the span of the persistent data, first row and number of
rows. -/
def OpRow.layout : Layout OpRow where
  size := 16
  encode r := Span.layout.encode r.userData ++ wordBytes r.scratchFirst ++ wordBytes r.scratchCount
  decode bytes := ⟨Span.layout.decode bytes, wordAt bytes 8, wordAt bytes 12⟩

/-- Where the tables of an interpreter start. -/
structure Tables where
  operators : Nat
  tensors : Nat
  scratch : Nat
  deriving DecidableEq, Repr

namespace Memory

/-- Writes a table, if the memory has room for all of it. -/
def writeTable (layout : Layout α) (m : Memory) (table : Nat) (rows : List α) :
    Except MemoryError Memory :=
  let bytes := rows.flatMap layout.encode
  if table + bytes.length ≤ m.size then .ok (m.write table bytes)
  else .error (.outOfBounds table bytes.length m.size)

def readRow (layout : Layout α) (m : Memory) (table index : Nat) : Except MemoryError α :=
  match m.read? (table + index * layout.size) layout.size with
  | some bytes => .ok (layout.decode bytes)
  | none => .error (.outOfBounds (table + index * layout.size) layout.size m.size)

end Memory

end TensorArena
