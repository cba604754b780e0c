import TensorArena.Arena.Basic

/-!
# Disjoint slices of one memory

An operator needs several ranges of the arena at the same time, each for itself. Splitting hands
them out together: every range must lie inside the memory, and the ones that hold bytes must not
overlap. The slices are cut off in the order of their offsets, and there an overlap shows.
-/

namespace TensorArena

/-- A range of offsets. -/
structure ByteRange where
  offset : Nat
  length : Nat
  deriving DecidableEq, Repr

namespace ByteRange

/-- The offset after the last byte. -/
def stop (r : ByteRange) : Nat :=
  r.offset + r.length

def empty : ByteRange :=
  ⟨0, 0⟩

/-- Whether an offset lies in the range. -/
def Covers (r : ByteRange) (x : Nat) : Prop :=
  r.offset ≤ x ∧ x < r.stop

/-- Whether no offset lies in both ranges. -/
def Apart (r s : ByteRange) : Prop :=
  ∀ x, r.Covers x → ¬ s.Covers x

/-- Puts a range with its place behind all ranges that start no later. -/
def insert (c : ByteRange × Nat) : List (ByteRange × Nat) → List (ByteRange × Nat)
  | [] => [c]
  | d :: rest => if c.1.offset < d.1.offset then c :: d :: rest else d :: insert c rest

/-- The ranges that hold bytes by offset, each with its place among all ranges; ranges that start
together keep their order. -/
def ordered (ranges : List ByteRange) : List (ByteRange × Nat) :=
  (ranges.zipIdx.filter fun (r, _) => r.length ≠ 0).foldl (fun sorted c => insert c sorted) []

end ByteRange

/-- The offsets that a slice of the arena covers. -/
def Slice.range (s : Slice) : ByteRange :=
  ⟨s.address, s.bytes.length⟩

/-- A block that an arena handed out: the end it comes from, its range, and the alignment that was
asked for. -/
structure Block where
  region : Region
  range : ByteRange
  align : Nat
  deriving DecidableEq, Repr

namespace Memory

/-- How many ranges can be handed out at once. -/
def maxPieces : Nat := 64

/-- Cuts slices off a memory, of which `rest` is what is left from `cursor` on. The ranges come by
offset; the slice of each goes to the slot in its place, and the walk goes on behind it. A range that
starts before the cursor overlaps one that was cut off. -/
def carve (rest : Memory) (cursor : Nat) (slots : List Slice) :
    List (ByteRange × Nat) → Except MemoryError (List Slice)
  | [] => .ok slots
  | (r, i) :: more =>
    if r.offset < cursor then .error (.overlappingRegions r.offset)
    else
      let start := r.offset - cursor
      carve (rest.window (start + r.length) rest.size) r.stop
        (slots.set i ⟨cursor + start, rest.read start r.length⟩) more

/-- The slices of all ranges, each in the place of its range, for a caller with `slots` places to put
them. The number of ranges is checked first, then each range against the memory, in order.

A range without bytes has an empty slice, which stands at the offset of the range. Nothing depends
on where an empty slice stands but a typed view of a tensor without elements, which asks for its
address; elsewhere it may stand at any address, and such a view may be refused. -/
def split (m : Memory) (slots : Nat) (ranges : List ByteRange) :
    Except MemoryError (List Slice) :=
  if maxPieces < ranges.length ∨ slots < ranges.length then
    .error (.tooManyRegions ranges.length (min maxPieces slots))
  else
    match ranges.find? fun r => m.size < r.stop with
    | some r => .error (.outOfBounds r.offset r.length m.size)
    | none => m.carve 0 (ranges.map fun r => ⟨r.offset, []⟩) (ByteRange.ordered ranges)

/-- Puts pieces back where they were taken from; of each piece at most as many bytes as its range
has. -/
def join (m : Memory) (pieces : List (ByteRange × Bytes)) : Memory :=
  pieces.foldl (fun m (r, bytes) => m.write r.offset (bytes.take r.length)) m

/-- Puts other bytes where slices were cut off. -/
def putBack (m : Memory) (slices : List Slice) (written : List Bytes) : Memory :=
  m.join ((slices.map Slice.range).zip written)

end Memory

end TensorArena
