import TensorArena.Interpreter.Record
import TensorArena.Interpreter.Kernel

/-!
# Binding operands

Before a kernel runs, the tables in the arena are read for the ranges of its operands, scratch
blocks and persistent data, and these ranges are checked to be in bounds and apart. An activation
that is read twice is one range, which both inputs see.
-/

namespace TensorArena

/-- Where the bytes of an operand come from. -/
inductive Source where
  | absent
  | constant (tensor : Tensor) (data : Packed)
  | placed (tensor : Tensor) (range : ByteRange)
  deriving DecidableEq, Repr

namespace Memory

/-- The range of a tensor, by the tensor table. -/
def tensorRange (m : Memory) (tables : Tables) (id : Nat) : Except ExecutionError ByteRange :=
  match m.readRow Span.layout tables.tensors id with
  | .error e => .error (.memory e)
  | .ok span => if span.IsPlaced then .ok span.range else .error (.unplaced id)

/-- The source of an input. -/
def inputSource (m : Memory) (g : Graph) (tables : Tables) :
    Option Nat → Except ExecutionError Source
  | none => .ok .absent
  | some id =>
    match g.tensors[id]? with
    | none => .error (.unplaced id)
    | some t =>
      match t.data with
      | some data => .ok (.constant t data)
      | none => (m.tensorRange tables id).map (.placed t)

/-- The source of an output, which is never a constant. -/
def outputSource (m : Memory) (g : Graph) (tables : Tables) :
    Option Nat → Except ExecutionError Source
  | none => .ok .absent
  | some id =>
    match g.tensors[id]? with
    | none => .error (.unplaced id)
    | some t => (m.tensorRange tables id).map (.placed t)

/-- The ranges of an operator's scratch blocks, by the scratch table. There are places for one range
more than an operator may have scratch blocks; the rows are read first, up to one that finds no
place. -/
def scratchRanges (m : Memory) (tables : Tables) (row : OpRow) :
    Except ExecutionError (List ByteRange) := do
  let count := row.scratchCount.toNat
  let spans ← (List.range (min count (maxScratch + 2))).mapM fun k =>
    (m.readRow Span.layout tables.scratch (row.scratchFirst.toNat + k)).mapError .memory
  if maxScratch + 1 < count then throw (.scratchCount count)
  pure (spans.map Span.range)

end Memory

namespace OpRow

/-- The range of an operator's persistent data. -/
def userRange (row : OpRow) : ByteRange :=
  if row.userData.IsPlaced then row.userData.range else .empty

/-- The range in the place of the persistent data. Where there are none, a scratch block too many
has taken the place, if a damaged row lists one. -/
def lastRange (row : OpRow) (scratch : List ByteRange) : ByteRange :=
  if row.userData.IsPlaced then row.userRange else scratch[maxScratch]?.getD .empty

end OpRow

/-- The range of an output. An operand that is left out has no bytes. -/
def Source.range : Source → ByteRange
  | placed _ r => r
  | _ => .empty

/-- The range that an input claims for itself: none if its bytes are not in the arena, and none for
an activation that an earlier input reads. -/
def Source.claim (earlier : List (Option Nat)) (operand : Option Nat) : Source → ByteRange
  | placed t r => if ¬ t.isVariable ∧ operand ∈ earlier then .empty else r
  | _ => .empty

/-- The ranges that inputs claim, one for each of them. -/
def inputRanges (earlier : List (Option Nat)) : List (Option Nat × Source) → List ByteRange
  | [] => []
  | (operand, src) :: rest => src.claim earlier operand :: inputRanges (operand :: earlier) rest

/-- An input, of which `own` is the slice cut off in its place, and `first` the one in the place of the
first input that names the same tensor. Inputs that cannot be written share that one. -/
def Source.input (own first : Slice) : Source → Input
  | absent => .absent
  | constant t data => .shared t ⟨0, data.toBytes⟩
  | placed t _ => if t.isVariable then .var t own else .shared t first

def Source.output (own : Slice) : Source → Option (Tensor × Slice)
  | placed t _ => some (t, own)
  | _ => none

/-- What the tables say about an operator: where its operands come from, and the ranges of its
scratch blocks. -/
structure Sources where
  inputs : List Source
  outputs : List Source
  scratch : List ByteRange
  deriving DecidableEq, Repr

/-- Reads the tables for an operator: inputs first, then outputs, then scratch blocks. -/
def Memory.sources (m : Memory) (g : Graph) (op : Operator) (tables : Tables) (row : OpRow) :
    Except ExecutionError Sources := do
  let inputs ← op.inputs.mapM (m.inputSource g tables)
  let outputs ← op.outputs.mapM (m.outputSource g tables)
  let scratch ← m.scratchRanges tables row
  pure ⟨inputs, outputs, scratch⟩

namespace Sources

/-- The ranges to cut off for an operator: one for each input, each output and each scratch block, and
one for its persistent data. -/
def claims (b : Sources) (op : Operator) (row : OpRow) : List ByteRange :=
  inputRanges [] (op.inputs.zip b.inputs) ++ b.outputs.map Source.range ++
    b.scratch.take maxScratch ++ [row.lastRange b.scratch]

/-- The operands, each with the slice in the place of its claim. -/
def operands (b : Sources) (op : Operator) (context : Option Int) (slices : List Slice) :
    Operands where
  operator := op
  inputs := (op.inputs.zip b.inputs).mapIdx fun i (operand, src) =>
    src.input (slices.getD i .empty) (slices.getD (op.inputs.idxOf operand) .empty)
  outputs := b.outputs.mapIdx fun i src => src.output (slices.getD (op.inputs.length + i) .empty)
  scratch := (slices.drop (op.inputs.length + b.outputs.length)).take b.scratch.length
  userData := slices.getLastD .empty
  context := context

end Sources

/-- Binds the operands of an operator: one split hands out the slices of all its claims. Whether they
are in bounds and apart is found before the number of scratch blocks is looked at. -/
def Memory.bind (m : Memory) (g : Graph) (op : Operator) (tables : Tables) (row : OpRow)
    (context : Option Int) : Except ExecutionError Operands := do
  let b ← m.sources g op tables row
  let ranges := b.claims op row
  let slices ← (m.split ranges.length ranges).mapError .memory
  if maxScratch < b.scratch.length then throw (.scratchCount b.scratch.length)
  pure (b.operands op context slices)

end TensorArena
