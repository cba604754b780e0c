import TensorArena.Graph.Check

/-!
# Sample graphs

Small graphs over the sample kernels: one of each shape that matters to planning and running, from a
single operator with a constant to chains with variables and operands that are left out.
-/

namespace TensorArena

namespace OpCode

/-- Adds two numbers and offers the sum twice. -/
def mockCustom : OpCode :=
  .custom "mock_custom"

/-- The median of bytes and a count of the runs. -/
def simpleStateful : OpCode :=
  .custom "simple_stateful_op"

/-- The sum of three numbers of different types. -/
def multipleInputs : OpCode :=
  .custom "multiple_inputs_op"

/-- Nothing. -/
def noOp : OpCode :=
  .custom "no_op"

/-- Counts a variable up and copies it out. -/
def accumulate : OpCode :=
  .custom "accumulate"

end OpCode

namespace Graph.Sample

/-- An activation that holds one 32-bit integer. -/
def scalar (name : String) : Tensor :=
  .activation name .i32 (.vector 1)

/-- A variable that holds one 32-bit integer. -/
def counter (name : String) : Tensor :=
  .var name .i32 (.vector 1)

/-- A constant that holds one integer. -/
def number (name : String) (dtype : DType) (value : Nat) : Tensor :=
  .constant name dtype (.vector 1) (.ofElements dtype.size [value])

/-- One operator that adds 21 to its input and writes the sum to two outputs. -/
def simple : Graph where
  name := "simple"
  tensors := [scalar "input", number "weight" .i32 21, scalar "output0", scalar "output1"]
  operators := [⟨"mock", .mockCustom, [some 0, some 1], [some 2, some 3]⟩]
  inputs := [0]
  outputs := [2, 3]

/-- A chain of three operators, each of which adds a variable. -/
def complex : Graph where
  name := "complex"
  tensors := [scalar "input", counter "state0", scalar "act0", counter "state1", scalar "act1",
    counter "state2", scalar "output"]
  operators := (List.range 3).map fun k =>
    ⟨s!"mock{k}", .mockCustom, [some (2 * k), some (2 * k + 1)], [some (2 * k + 2)]⟩
  inputs := [0]
  outputs := [6]

/-- One operator that keeps a count: the median of `length` bytes, and how often it ran. -/
def stateful (length : Nat) : Graph where
  name := "stateful"
  tensors := [.activation "input" .u8 (.vector length), .activation "median" .u8 (.vector 1),
    scalar "invoke_count"]
  operators := [⟨"stateful", .simpleStateful, [some 0], [some 1, some 2]⟩]
  inputs := [0]
  outputs := [1, 2]

/-- One operator over three inputs of two types. -/
def multipleInputs : Graph where
  name := "multiple_inputs"
  tensors := [scalar "input0", .activation "input1" .i8 (.vector 1), scalar "input2",
    scalar "output"]
  operators := [⟨"sum3", .multipleInputs, [some 0, some 1, some 2], [some 3]⟩]
  inputs := [0, 1, 2]
  outputs := [3]

/-- One operator with operands left out; the only tensor is both input and output. -/
def nullIo : Graph where
  name := "null_io"
  tensors := [scalar "passthrough"]
  operators := [⟨"nothing", .noOp, [some 0, none], [none]⟩]
  inputs := [0]
  outputs := [0]

/-- A large tensor multiplied by a constant of one element. -/
def large : Graph where
  name := "large_tensor"
  tensors := [.activation "input" .u8 (.matrix 256 256), number "one" .u8 1,
    .activation "output" .u8 (.matrix 256 256)]
  operators := [⟨"scale", .mul, [some 0, some 1], [some 2]⟩]
  inputs := [0]
  outputs := [2]

def add : Graph where
  name := "add"
  tensors := [scalar "input", number "bias" .i32 21, scalar "output"]
  operators := [⟨"add", .add, [some 0, some 1], [some 2]⟩]
  inputs := [0]
  outputs := [2]

/-- A variable that every run counts up and reports; there are no inputs. -/
def accumulator : Graph where
  name := "accumulator"
  tensors := [counter "total", scalar "output"]
  operators := [⟨"bump", .accumulate, [some 0], [some 1]⟩]
  inputs := []
  outputs := [1]

/-- The sample of a name; `length` is for the one that takes a length. -/
def ofName? (name : String) (length : Nat) : Option Graph :=
  match name with
  | "simple" => some simple
  | "complex" => some complex
  | "stateful" => some (stateful 3)
  | "stateful_len" => some (stateful length)
  | "multiple_inputs" => some multipleInputs
  | "null_io" => some nullIo
  | "large" => some large
  | "add" => some add
  | "accumulator" => some accumulator
  | _ => none

end Graph.Sample

end TensorArena
