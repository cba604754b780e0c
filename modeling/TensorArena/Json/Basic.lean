import TensorArena.Json.Numeral

/-!
# JSON values

A value as it was written: fields stay in order and may repeat, numbers keep their digits, and a
text that names half of a surrogate pair is present but has no characters. What a reader skips
needs no meaning beyond that.
-/

namespace TensorArena

/-- A JSON value. -/
inductive Json where
  | null
  | bool (b : Bool)
  | number (n : Numeral)
  | string (text? : Option String)
  | array (items : List Json)
  | object (fields : List (Option String × Json))

namespace Json

def text (s : String) : Json :=
  string (some s)

def nat (n : Nat) : Json :=
  number (Numeral.ofNat n)

def nats (ns : List Nat) : Json :=
  array (ns.map nat)

/-- A value that may be absent. -/
def optional (f : α → Json) : Option α → Json
  | none => null
  | some a => f a

/-- An object with the given fields, in this order. -/
def record (fields : List (String × Json)) : Json :=
  object (fields.map fun (k, v) => (some k, v))

/-! ## Fields in alphabetical order -/

/-- Puts a field before the first field with a greater name. -/
def insertField (field : Option String × Json) :
    List (Option String × Json) → List (Option String × Json)
  | [] => [field]
  | other :: rest =>
    if other.1.getD "" ≤ field.1.getD "" then other :: insertField field rest
    else field :: other :: rest

mutual

def sorted : Json → Json
  | array items => array (sortedItems items)
  | object fields => object (sortedFields fields)
  | other => other

/-- The items of a list, each with its fields in order. -/
def sortedItems : List Json → List Json
  | [] => []
  | v :: rest => sorted v :: sortedItems rest

/-- The fields of an object in order, and the fields of their values. -/
def sortedFields : List (Option String × Json) → List (Option String × Json)
  | [] => []
  | (k, v) :: rest => insertField (k, sorted v) (sortedFields rest)

end

end Json

end TensorArena
