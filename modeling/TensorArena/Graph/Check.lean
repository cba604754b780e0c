import TensorArena.Graph.Basic
import TensorArena.Graph.Error
import TensorArena.Log

/-!
# Checked graphs

Planning and running take only graphs that passed the check:

* every tensor can be addressed, and constant data has exactly the bytes that its tensor calls for;
* all tensor numbers exist, and graph inputs are activations;
* an activation is read only if it is a graph input or an earlier operator writes it;
* operators write activations only, none twice, no graph input, and none that they read themselves;
* no operator lists a variable twice among its inputs;
* an activation among the graph outputs is a graph input or written by some operator.

The rules are checked in this order, tensor by tensor and then operator by operator, and the first
one that is broken is reported.
-/

namespace TensorArena

/-- Checks the size of a tensor and its data. -/
def Tensor.check (t : Tensor) : Except ModelError Unit :=
  match t.shape.bytes? t.dtype with
  | none => .error (.tensor t.name (.tooLarge t.shape t.dtype))
  | some bytes =>
    if Word.maxSigned < bytes then .error (.tensor t.name (.tooLarge t.shape t.dtype))
    else
      match t.data with
      | none => .ok ()
      | some data =>
        if t.isVariable then .error (.tensor t.name .constantVariable)
        else if data.length ≠ bytes then
          .error (.tensor t.name (.dataSize data.length t.shape t.dtype bytes))
        else .ok ()

/-- Runs a check over a list until one fails. -/
def checkAll (check : α → Except ε Unit) : List α → Except ε Unit
  | [] => .ok ()
  | a :: rest =>
    match check a with
    | .ok () => checkAll check rest
    | .error e => .error e

namespace Graph

/-- Checks that a tensor number of the graph's inputs or outputs exists. -/
def checkListed (g : Graph) (id : Nat) : Except ModelError Unit :=
  if id < g.tensors.length then .ok ()
  else .error (.graph (.unknownTensor id g.tensors.length))

def checkInput (g : Graph) (id : Nat) : Except ModelError Unit :=
  match g.tensors[id]? with
  | none => .error (.graph (.unknownTensor id g.tensors.length))
  | some t =>
    if t.kind = .activation then .ok () else .error (.graph (.inputKind t.name t.kind))

def checkOperand (g : Graph) (op : Operator) (id : Nat) : Except ModelError Unit :=
  if id < g.tensors.length then .ok ()
  else .error (.operator op.name (.unknownTensor id g.tensors.length))

/-- Checks the inputs of an operator against the tensors written so far. -/
def checkReads (g : Graph) (op : Operator) (written : List Nat) :
    List Nat → Except ModelError Unit
  | [] => .ok ()
  | id :: rest =>
    match g.tensors[id]? with
    | none => .error (.operator op.name (.unknownTensor id g.tensors.length))
    | some t =>
      if t.kind = .activation ∧ id ∉ g.inputs ∧ id ∉ written then
        .error (.operator op.name (.readsUnwritten t.name))
      -- Two operands that can be written would share their bytes.
      else if t.kind = .var ∧ id ∈ rest then
        .error (.operator op.name (.repeatsVariable t.name))
      else checkReads g op written rest

/-- Checks the outputs of an operator against the tensors written so far. -/
def checkWrites (g : Graph) (op : Operator) (written : List Nat) :
    List Nat → Except ModelError Unit
  | [] => .ok ()
  | id :: rest =>
    match g.tensors[id]? with
    | none => .error (.operator op.name (.unknownTensor id g.tensors.length))
    | some t =>
      if t.kind ≠ .activation then .error (.operator op.name (.writesKind t.kind t.name))
      else if id ∈ g.inputs then .error (.operator op.name (.writesInput t.name))
      else if id ∈ written ∨ id ∈ rest then .error (.operator op.name (.writtenTwice t.name))
      else if id ∈ op.inputIds then .error (.operator op.name (.readsAndWrites t.name))
      else checkWrites g op written rest

/-- Checks one operator against the tensors written so far. -/
def checkOperator (g : Graph) (written : List Nat) (op : Operator) : Except ModelError Unit := do
  -- Unknown tensors come first, among the outputs too.
  checkAll (g.checkOperand op) op.operandIds
  checkReads g op written op.inputIds
  checkWrites g op written op.outputIds

/-- Checks the operators in order; gives the tensors that they write. -/
def checkOperators (g : Graph) (written : List Nat) :
    List Operator → Except ModelError (List Nat)
  | [] => .ok written
  | op :: rest =>
    match g.checkOperator written op with
    | .ok () => checkOperators g (written ++ op.outputIds) rest
    | .error e => .error e

/-- Checks that a graph output has a value in the end. -/
def checkOutput (g : Graph) (written : List Nat) (id : Nat) : Except ModelError Unit :=
  match g.tensors[id]? with
  | none => .error (.graph (.unknownTensor id g.tensors.length))
  | some t =>
    if t.kind = .activation ∧ id ∉ g.inputs ∧ id ∉ written then
      .error (.graph (.outputUnwritten t.name))
    else .ok ()

def check (g : Graph) : Except ModelError Unit := do
  checkAll Tensor.check g.tensors
  checkAll g.checkListed (g.inputs ++ g.outputs)
  checkAll g.checkInput g.inputs
  let written ← checkOperators g [] g.operators
  checkAll (g.checkOutput written) g.outputs

def warnings (g : Graph) : Log :=
  g.unreferenced.map fun t => ⟨.warn, s!"tensor '{t.name}' is never referenced and gets no buffer"⟩

end Graph

/-- A graph that passed the check. -/
structure CheckedGraph extends Graph where
  checked : toGraph.check = .ok ()

/-- Checks a graph; the accepted graph is the same graph. -/
def Graph.validate (g : Graph) : Except ModelError CheckedGraph :=
  match h : g.check with
  | .ok () => .ok { g with checked := h }
  | .error e => .error e

end TensorArena
