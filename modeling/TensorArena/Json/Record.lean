import TensorArena.Json.Basic

/-!
# Values as domain data

Readers from JSON values to data. A record is written as an object, in any order and with fields
that nobody asked for, or as the list of its fields in their order; a field may be missing only
where the record has a default for it. A field that is given twice is refused.
-/

namespace TensorArena.Json

def bool? : Json → Option Bool
  | bool b => some b
  | _ => none

def text? : Json → Option String
  | string s => s
  | _ => none

def word? : Json → Option Nat
  | number n => n.word?
  | _ => none

def byte? (j : Json) : Option UInt8 :=
  match j.word? with
  | some n => if n < 256 then some (UInt8.ofNat n) else none
  | none => none

def double? : Json → Option Binary
  | number n => n.double?
  | _ => none

/-- Adds a read item to a list of items. -/
def push (items : Option (List α)) (item : Option α) : Option (List α) :=
  match items, item with
  | some items, some item => some (item :: items)
  | _, _ => none

def list? (f : Json → Option α) : Json → Option (List α)
  | array items => (items.foldl (fun acc v => push acc (f v)) (some [])).map List.reverse
  | _ => none

def nullable? (f : Json → Option α) : Json → Option (Option α)
  | null => some none
  | j => (f j).map some

/-- The value of a field, where the key occurs once at most. -/
def field? (fields : List (Option String × Json)) (name : String) : Option (Option Json) :=
  match fields.filter fun f => f.1 = some name with
  | [] => some none
  | [f] => some (some f.2)
  | _ => none

/-- The fields of a record by their names, each present or missing. -/
def slots? (names : List String) : Json → Option (List (Option Json))
  | object fields =>
    if fields.any fun f => f.1.isNone then none else names.mapM (field? fields)
  | array items =>
    if names.length < items.length then none
    else some (items.map some ++ List.replicate (names.length - items.length) none)
  | _ => none

def required (f : Json → Option α) (slot : Option Json) : Option α :=
  slot.bind f

/-- A field with a default. -/
def withDefault (default : α) (f : Json → Option α) : Option Json → Option α
  | none => some default
  | some j => f j

/-- One of several labels: a text, or an object whose only field is the label with null. -/
def label? (f : String → Option α) : Json → Option α
  | string (some s) => f s
  | object [(some s, null)] => f s
  | _ => none

end TensorArena.Json
