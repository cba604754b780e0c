/-!
# TOML documents

A document is a table: entries by key, in the order they were written. An entry is a value, a table,
or a list of tables. Where a table came from decides how it may be extended later: a header may be
written once, and only for a table that no other header or dotted key has defined.

Texts and truth values are kept. Of all other values only the fact that they were written is kept.
-/

namespace TensorArena.Toml

/-- A value. -/
inductive Value where
  | text (s : String)
  | bool (b : Bool)
  | other
  deriving DecidableEq, Repr

/-- What defined a table: a longer header that runs through it, a dotted key, or a header of its
own. -/
inductive Origin where
  | implied
  | dotted
  | header
  deriving DecidableEq, Repr

/-- An entry of a table. -/
inductive Item where
  | value (v : Value)
  | table (origin : Origin) (entries : List (String × Item))
  | tables (items : List (List (String × Item)))

abbrev Entries := List (String × Item)

namespace Entries

def find? (entries : Entries) (key : String) : Option Item :=
  (List.find? (fun e => e.1 = key) entries).map (·.2)

/-- The entries with another item under a key that they have. -/
def replace (entries : Entries) (key : String) (item : Item) : Entries :=
  entries.map fun e => if e.1 = key then (key, item) else e

/-- Changes the table at the end of a path; tables that are missing on the way come into being. A
path of a dotted key does not run through a table that has a header of its own, and no path runs
through a value. -/
def descend (change : Origin → Entries → Option Entries) (dotted : Bool) :
    List String → Origin → Entries → Option Entries
  | [], origin, entries => change origin entries
  | key :: rest, _, entries =>
    match entries.find? key with
    | none => do
      let origin := if dotted then Origin.dotted else .implied
      let sub ← descend change dotted rest origin []
      some (entries ++ [(key, .table origin sub)])
    | some (.table origin sub) =>
      if dotted ∧ origin = .header then none
      else do
        let sub ← descend change dotted rest origin sub
        some (entries.replace key (.table origin sub))
    | some (.tables items) => do
      let sub ← descend change dotted rest .header (← items.getLast?)
      some (entries.replace key (.tables (items.dropLast ++ [sub])))
    | some (.value _) => none

/-- Adds a value under a new key. A dotted key adds to a table that dotted keys have made, and a
plain key to any other table. -/
def add (entries : Entries) (path : List String) (key : String) (v : Value) : Option Entries :=
  descend (fun origin sub =>
    if (origin = .dotted) = (path = []) then none
    else if (sub.find? key).isSome then none
    else some (sub ++ [(key, .value v)])) true path .header entries

/-- Opens the table of a header. -/
def openTable (entries : Entries) (path : List String) (key : String) : Option Entries :=
  descend (fun _ sub =>
    match sub.find? key with
    | none => some (sub ++ [(key, .table .header [])])
    | some (.table .implied inner) => some (sub.replace key (.table .header inner))
    | some _ => none) false path .header entries

/-- Opens one more table of a list of tables. -/
def openListed (entries : Entries) (path : List String) (key : String) : Option Entries :=
  descend (fun _ sub =>
    match sub.find? key with
    | none => some (sub ++ [(key, .tables [[]])])
    | some (.tables items) => some (sub.replace key (.tables (items ++ [[]])))
    | some _ => none) false path .header entries

end Entries

end TensorArena.Toml
