import TensorArena.Graph.Tensor

/-!
# What is wrong with a model

A model fails as a text, in one of its tensors, in one of its operators, or as a whole. Each failure
keeps its cause; the wording is in one place per kind of cause.
-/

namespace TensorArena

/-- What is wrong with a tensor. -/
inductive TensorFault where
  | unsupportedDType (name : String)
  | tooLarge (shape : Shape) (dtype : DType)
  | valueCount (shape : Shape) (needed given : Nat)
  | valueOutOfRange (value : Binary) (dtype : DType)
  | constantVariable
  | dataSize (given : Nat) (shape : Shape) (dtype : DType) (needed : Nat)
  deriving DecidableEq, Repr

/-- The fault in words. -/
def TensorFault.text : TensorFault → String
  | unsupportedDType name => s!"unsupported dtype '{name}'"
  | tooLarge shape dtype => s!"shape {shape.text} of {dtype.label} is too large to address"
  | valueCount shape needed given => s!"shape {shape.text} needs {needed} values, got {given}"
  | valueOutOfRange value dtype => s!"value {value.text .double} does not fit {dtype.label}"
  | constantVariable => "a tensor cannot be both constant and variable"
  | dataSize given shape dtype needed =>
    s!"constant data is {given} bytes, shape {shape.text} of {dtype.label} needs {needed}"

/-- What is wrong with an operator; tensors are named. -/
inductive OperatorFault where
  | unknownTensor (id count : Nat)
  | readsUnwritten (tensor : String)
  | repeatsVariable (tensor : String)
  | writesKind (kind : TensorKind) (tensor : String)
  | writesInput (tensor : String)
  | writtenTwice (tensor : String)
  | readsAndWrites (tensor : String)
  deriving DecidableEq, Repr

/-- The fault in words. -/
def OperatorFault.text : OperatorFault → String
  | unknownTensor id count => s!"references tensor {id}, but only {count} tensors exist"
  | readsUnwritten tensor => s!"reads '{tensor}' before any operator writes it"
  | repeatsVariable tensor => s!"lists variable '{tensor}' more than once"
  | writesKind kind tensor => s!"writes {kind.label} tensor '{tensor}'"
  | writesInput tensor => s!"writes graph input '{tensor}'"
  | writtenTwice tensor => s!"'{tensor}' is written more than once"
  | readsAndWrites tensor => s!"both reads and writes '{tensor}'"

/-- What is wrong with the inputs and outputs of a graph; tensors are named. -/
inductive GraphFault where
  | unknownTensor (id count : Nat)
  | inputKind (tensor : String) (kind : TensorKind)
  | outputUnwritten (tensor : String)
  deriving DecidableEq, Repr

def GraphFault.text : GraphFault → String
  | unknownTensor id count => s!"graph I/O references tensor {id}, but only {count} tensors exist"
  | inputKind tensor kind => s!"graph input '{tensor}' is a {kind.label} tensor"
  | outputUnwritten tensor => s!"graph output '{tensor}' is never written"

/-- Why a model cannot be used. -/
inductive ModelError where
  | unreadable (reason : String)
  | unparsable
  | tensor (name : String) (fault : TensorFault)
  | operator (name : String) (fault : OperatorFault)
  | graph (fault : GraphFault)
  deriving DecidableEq, Repr

/-- The failure in words; of a text that is no manifest only the fact is told. -/
def ModelError.message : ModelError → String
  | unreadable reason => s!"failed to read manifest: {reason}"
  | unparsable => "failed to parse manifest"
  | tensor name fault => s!"invalid tensor '{name}': {fault.text}"
  | operator name fault => s!"invalid operator '{name}': {fault.text}"
  | graph fault => s!"invalid model graph: {fault.text}"

end TensorArena
