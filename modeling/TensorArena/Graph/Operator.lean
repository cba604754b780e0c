import TensorArena.Json.Record

/-!
# Operators of a graph

What to compute, and on which tensors. Operands are tensor numbers; an operand that the graph leaves
out keeps its place.
-/

namespace TensorArena

/-- What an operator computes: one of the built-in codes, or a code registered under a name. -/
inductive OpCode where
  | add
  | mul
  | custom (name : String)
  deriving DecidableEq, Repr

namespace OpCode

def label : OpCode → String
  | add => "add"
  | mul => "mul"
  | custom name => name

/-- The code that a name asks for. The built-in codes are matched in any letter case; all else is
kept as it is. Only letters of ASCII occur in the built-in names, and no other letter has one of
these as its lower case, so ASCII folding is exact. -/
def ofName (name : String) : OpCode :=
  match name.map Char.toLower with
  | "add" => add
  | "mul" | "multiply" => mul
  | _ => custom name

def toJson (c : OpCode) : Json :=
  .text c.label

def ofJson? (j : Json) : Option OpCode :=
  j.text?.map ofName

end OpCode

/-- One operator of a graph. -/
structure Operator where
  name : String
  code : OpCode
  inputs : List (Option Nat)
  outputs : List (Option Nat)
  deriving DecidableEq, Repr

namespace Operator

def inputIds (op : Operator) : List Nat :=
  op.inputs.filterMap id

def outputIds (op : Operator) : List Nat :=
  op.outputs.filterMap id

/-- All operands that are present, inputs first. -/
def operandIds (op : Operator) : List Nat :=
  op.inputIds ++ op.outputIds

/-- Operands in words, with a dash for one that is left out. -/
def operandsText (ids : List (Option Nat)) : String :=
  ", ".intercalate (ids.map fun
    | some id => s!"t{id}"
    | none => "-")

def summary (op : Operator) : String :=
  s!"{op.name} ({op.code.label}): [{operandsText op.inputs}] -> [{operandsText op.outputs}]"

/-- Operands as JSON, with null for one that is left out. -/
def operandsToJson (ids : List (Option Nat)) : Json :=
  .array (ids.map (Json.optional Json.nat))

def operandsOfJson? : Json → Option (List (Option Nat)) :=
  Json.list? (Json.nullable? Json.word?)

/-- An operator record, with all fields. -/
def toJson (op : Operator) : Json :=
  .record [("name", .text op.name), ("code", op.code.toJson),
    ("inputs", operandsToJson op.inputs), ("outputs", operandsToJson op.outputs)]

/-- Reads an operator record. -/
def ofJson? (j : Json) : Option Operator := do
  match ← j.slots? ["name", "code", "inputs", "outputs"] with
  | [name, code, inputs, outputs] =>
    some {
      name := ← Json.required Json.text? name
      code := ← Json.required OpCode.ofJson? code
      inputs := ← Json.required operandsOfJson? inputs
      outputs := ← Json.required operandsOfJson? outputs }
  | _ => none

end Operator

end TensorArena
