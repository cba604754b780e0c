import TensorArena.Arena.Ledger
import TensorArena.Graph.Operator
import TensorArena.Plan.Basic
import TensorArena.Tensor.View

/-!
# What can go wrong in an interpreter

One type of error per activity: a kernel at work, the allocation pass, an invocation, the setting up
of an interpreter, and the access to a tensor from outside. Each keeps the error that caused it.
-/

namespace TensorArena

/-- What a kernel reports. -/
inductive KernelError where
  | tensor (cause : TensorError)
  | missingInput (index : Nat)
  | missingOutput (index : Nat)
  | notVariable (index : Nat)
  | unknownScratch (index : Nat)
  | tooManyScratch (most : Nat)
  | persistentTwice
  | memory (cause : MemoryError)
  | failed (reason : String)
  /-- An element was asked for that is not there. No kernel reports this: it stands for an index out
  of range, which ends the whole program. -/
  | noElement (index length : Nat)
  deriving DecidableEq, Repr

/-- The error in words. -/
def KernelError.message : KernelError → String
  | tensor cause => cause.message
  | missingInput index => s!"required input {index} is missing"
  | missingOutput index => s!"required output {index} is missing"
  | notVariable index => s!"input {index} is not a variable tensor"
  | unknownScratch index => s!"scratch buffer {index} was not requested"
  | tooManyScratch most => s!"at most {most} scratch buffers per operator"
  | persistentTwice => "persistent data already allocated for this operator"
  | memory cause => s!"arena error: {cause.message}"
  | failed reason => reason
  | noElement index length => s!"index {index} is out of range for {length} elements"

/-- Why buffers could not be placed and committed. -/
inductive AllocationError where
  | arena (category : Category) (cause : MemoryError)
  | planner (cause : PlanError)
  | prepare (operator : String) (cause : KernelError)
  | tableOverflow (offset : Nat)
  | failed
  | busy
  deriving DecidableEq, Repr

/-- The error in words. -/
def AllocationError.message : AllocationError → String
  | arena category cause => s!"arena exhausted while allocating {category.label}: {cause.message}"
  | planner cause => s!"buffer placement failed: {cause.message}"
  | prepare operator cause => s!"prepare failed for operator '{operator}': {cause.message}"
  | tableOverflow offset => s!"arena offset {offset} does not fit in a record table"
  | failed => "interpreter is in the failed state"
  | busy => "allocator is busy"

/-- Why an invocation stopped. -/
inductive ExecutionError where
  | allocation (cause : AllocationError)
  | kernel (index : Nat) (operator : String) (cause : KernelError)
  | unplaced (id : Nat)
  | memory (cause : MemoryError)
  /-- The table has more scratch blocks for an operator than any operator can have. Nobody is told
  so: it stands for an index out of range, which ends the whole program. -/
  | scratchCount (count : Nat)
  | failed
  | busy
  deriving DecidableEq, Repr

/-- The error in words. -/
def ExecutionError.message : ExecutionError → String
  | allocation cause => s!"allocation failed: {cause.message}"
  | kernel index operator cause => s!"operator {index} '{operator}' failed: {cause.message}"
  | unplaced id => s!"tensor {id} has no arena buffer"
  | memory cause => s!"operand binding failed: {cause.message}"
  | scratchCount count => s!"operator record lists {count} scratch buffers"
  | failed => "interpreter is in the failed state"
  | busy => "allocator is busy"

/-- Why there is no interpreter for a graph. -/
inductive SetupError where
  | unresolvedOperator (operator : String) (code : OpCode)
  | tooManyOperands (operator : String) (count most : Nat)
  deriving DecidableEq, Repr

def SetupError.message : SetupError → String
  | unresolvedOperator operator code =>
    s!"no kernel registered for operator '{operator}' ({code.label})"
  | tooManyOperands operator count most =>
    s!"operator '{operator}' has {count} operands, at most {most} supported"

/-- Why a value for kernels is not taken. -/
inductive ContextError where
  | alreadySet
  deriving DecidableEq, Repr

def ContextError.message : ContextError → String
  | alreadySet => "external context is already set"

/-- Why a tensor cannot be reached from outside. -/
inductive AccessError where
  | notAllocated (state : String)
  | indexOutOfRange (kind : String) (index count : Nat)
  | readOnly (id : Nat)
  | noBuffer (id : Nat)
  | busy
  | memory (cause : MemoryError)
  deriving DecidableEq, Repr

/-- The error in words. -/
def AccessError.message : AccessError → String
  | notAllocated state => s!"tensors are not allocated (state: {state})"
  | indexOutOfRange kind index count => s!"{kind} index {index} out of range ({count})"
  | readOnly id => s!"tensor {id} is read-only"
  | noBuffer id => s!"tensor {id} has no arena buffer"
  | busy => "allocator is busy"
  | memory cause => cause.message

end TensorArena
