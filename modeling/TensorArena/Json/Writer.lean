import TensorArena.Bytes
import TensorArena.Json.Basic

/-!
# Writing JSON

Two layouts of one value: everything on one line without blanks, and one entry per line indented by
two blanks per level. Texts escape the quote, the backslash and the control characters; a control
character without a short escape is written with four hexadecimal digits.
-/

namespace TensorArena.Json

/-- The characters that stand for `c` inside a text. -/
def escape (c : Char) : List Char :=
  match c with
  | '"' => ['\\', '"']
  | '\\' => ['\\', '\\']
  | '\n' => ['\\', 'n']
  | '\r' => ['\\', 'r']
  | '\t' => ['\\', 't']
  | '\x08' => ['\\', 'b']
  | '\x0c' => ['\\', 'f']
  | c =>
    if c.toNat < 32 then
      ['\\', 'u', '0', '0', Bytes.hexDigit (c.toNat / 16), Bytes.hexDigit (c.toNat % 16)]
    else [c]

def quote (s : String) : String :=
  "\"" ++ String.ofList (s.toList.flatMap escape) ++ "\""

mutual

/-- The value on one line. -/
def compact : Json → String
  | null => "null"
  | bool true => "true"
  | bool false => "false"
  | number n => n.text
  | string s => quote (s.getD "")
  | array items => "[" ++ ",".intercalate (compactItems items) ++ "]"
  | object fields => "\x7b" ++ ",".intercalate (compactFields fields) ++ "\x7d"

/-- The items of a list, each on one line. -/
def compactItems : List Json → List String
  | [] => []
  | v :: rest => compact v :: compactItems rest

/-- The fields of an object, each on one line. -/
def compactFields : List (Option String × Json) → List String
  | [] => []
  | (k, v) :: rest => (quote (k.getD "") ++ ":" ++ compact v) :: compactFields rest

end

def newline (level : Nat) : String :=
  "\n" ++ String.ofList (List.replicate (2 * level) ' ')

/-- Entries between brackets, one per line; without entries the brackets meet. -/
def block (level : Nat) (left : String) (entries : List String) (right : String) : String :=
  match entries with
  | [] => left ++ right
  | _ =>
    left ++ newline (level + 1) ++ ("," ++ newline (level + 1)).intercalate entries ++
      newline level ++ right

mutual

/-- The value with one entry per line, from a level of indentation on. -/
def indented (level : Nat) : Json → String
  | array items => block level "[" (indentedItems (level + 1) items) "]"
  | object fields => block level "\x7b" (indentedFields (level + 1) fields) "\x7d"
  | null => "null"
  | bool true => "true"
  | bool false => "false"
  | number n => n.text
  | string s => quote (s.getD "")

/-- The items of a list, each with one entry per line. -/
def indentedItems (level : Nat) : List Json → List String
  | [] => []
  | v :: rest => indented level v :: indentedItems level rest

/-- The fields of an object, each with one entry per line. -/
def indentedFields (level : Nat) : List (Option String × Json) → List String
  | [] => []
  | (k, v) :: rest =>
    (quote (k.getD "") ++ ": " ++ indented level v) :: indentedFields level rest

end

def pretty (v : Json) : String :=
  indented 0 v

end TensorArena.Json
