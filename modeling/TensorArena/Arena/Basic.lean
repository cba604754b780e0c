import TensorArena.Arena.Memory
import TensorArena.Word

/-!
# The two-ended arena

One buffer, handed out from both ends. The head grows upward and can be rewound; the tail grows
downward and is permanent. The highest point that the head has ever reached stays reserved after a
rewind, so the tail never grows into bytes that an earlier pass may still use:

    0 ≤ head ≤ watermark ≤ tail ≤ capacity

A request that fails changes nothing. All offsets count from the base of the buffer, which is
aligned to sixteen bytes.
-/

namespace TensorArena

/-- One of the two ends that an arena hands bytes out from. -/
inductive Region where
  | head
  | tail
  deriving DecidableEq, Repr

def Region.label : Region → String
  | head => "head"
  | tail => "tail"

/-- What an arena refuses. -/
inductive MemoryError where
  | outOfMemory (region : Region) (requested available : Nat)
  | invalidAlignment (align : Nat)
  | outOfBounds (offset length capacity : Nat)
  | overlappingRegions (offset : Nat)
  | tooManyRegions (requested limit : Nat)
  deriving DecidableEq, Repr

/-- The alignment of an arena's base, and the largest one that a request may ask for. -/
def arenaAlignment : Nat := 16

/-- The bytes a buffer must have to hold `used` arena bytes whatever address it starts at. -/
def requiredBufferSize (used : Nat) : Nat :=
  alignUp used arenaAlignment + arenaAlignment

/-- What was refused, in words. -/
def MemoryError.message : MemoryError → String
  | outOfMemory region requested available =>
    s!"out of memory in {region.label}: requested {requested} bytes, but only {available} available"
  | invalidAlignment align =>
    s!"invalid alignment {align}: must be a power of two no larger than {arenaAlignment}"
  | outOfBounds offset length capacity =>
    s!"range {offset}..{offset}+{length} is out of bounds for arena of {capacity} bytes"
  | overlappingRegions offset => s!"regions overlap at offset {offset}"
  | tooManyRegions requested limit =>
    s!"cannot split {requested} regions, at most {limit} supported"

/-- A buffer and how far its two ends have come. -/
structure Arena where
  memory : Memory
  head : Nat
  watermark : Nat
  tail : Nat

namespace Arena

def capacity (a : Arena) : Nat :=
  a.memory.size

/-- An arena over a buffer that starts at `address`: leading bytes are skipped up to an aligned
address, and the rest is cut to a multiple of the alignment. -/
def ofBuffer (address : Nat) (buffer : Memory) : Arena :=
  let skip := min ((arenaAlignment - address % arenaAlignment) % arenaAlignment) buffer.size
  let capacity := alignDown (buffer.size - skip) arenaAlignment
  ⟨buffer.window skip capacity, 0, 0, capacity⟩

/-- The alignments that a request may ask for. -/
def LegalAlignment (align : Nat) : Prop :=
  IsPowerOfTwo align ∧ align ≤ arenaAlignment

instance (align : Nat) : Decidable (LegalAlignment align) :=
  inferInstanceAs (Decidable (_ ∧ _))

/-- Moves the head up past a block of `size` bytes and gives the block's offset. -/
def allocateHead (a : Arena) (size align : Nat) : Except MemoryError (Nat × Arena) :=
  if ¬ LegalAlignment align then .error (.invalidAlignment align)
  else
    let start := alignUp a.head align
    if start + size ≤ a.tail then
      .ok (start, { a with head := start + size, watermark := max a.watermark (start + size) })
    else .error (.outOfMemory .head size (a.tail - start))

/-- Moves the tail down past a block of `size` bytes and gives the block's offset. -/
def allocateTail (a : Arena) (size align : Nat) : Except MemoryError (Nat × Arena) :=
  if ¬ LegalAlignment align then .error (.invalidAlignment align)
  -- The watermark counts and not the head: no block at the tail takes rewound bytes.
  else if size ≤ a.tail ∧ a.watermark ≤ alignDown (a.tail - size) align then
    .ok (alignDown (a.tail - size) align, { a with tail := alignDown (a.tail - size) align })
  else .error (.outOfMemory .tail size (a.tail - a.watermark))

def allocate (a : Arena) : Region → (size align : Nat) → Except MemoryError (Nat × Arena)
  | .head => a.allocateHead
  | .tail => a.allocateTail

/-- Rewinds the head; the watermark stays. -/
def resetHead (a : Arena) : Arena :=
  { a with head := 0 }

/-- Bytes reserved at the head, rewound ones included. -/
def headUsed (a : Arena) : Nat :=
  a.watermark

def tailUsed (a : Arena) : Nat :=
  a.capacity - a.tail

def used (a : Arena) : Nat :=
  a.headUsed + a.tailUsed

/-- Bytes between the watermark and the tail. -/
def available (a : Arena) : Nat :=
  a.tail - a.watermark

/-- The bytes of a range; a range that leaves the arena is refused. -/
def read (a : Arena) (offset length : Nat) : Except MemoryError Bytes :=
  match a.memory.read? offset length with
  | some bytes => .ok bytes
  | none => .error (.outOfBounds offset length a.capacity)

/-- Replaces the bytes of a range; a range that leaves the arena is refused. -/
def write (a : Arena) (offset : Nat) (bytes : Bytes) : Except MemoryError Arena :=
  if offset + bytes.length ≤ a.capacity then
    .ok { a with memory := a.memory.write offset bytes }
  else .error (.outOfBounds offset bytes.length a.capacity)

def debugText (a : Arena) : String :=
  s!"Arena \x7b capacity: {a.capacity}, head: {a.head}, head_watermark: {a.watermark}, " ++
    s!"tail: {a.tail} \x7d"

end Arena

end TensorArena
