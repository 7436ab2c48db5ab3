import Mathlib.Data.List.Basic

/-!
# Stored JSON documents

The aggregates read stored documents with the operators `->>` and
`#>>`.  A document is the value after the cast to `jsonb`: a number is
its decimal text, and an object is the list of its members in stored order.

Main definitions:

- `Json.render`: the printed form of a document.
- `Json.getText`, `Json.pathText`: what the two operators read.
-/

namespace MpvmApp

/-- A document of type `jsonb`. -/
inductive Json where
  | null
  | bool (b : Bool)
  | num (text : String)
  | str (text : String)
  | arr (items : List Json)
  | obj (members : List (String × Json))

namespace Json

/-- One hexadecimal digit. -/
def hexDigit (n : Nat) : Char :=
  if n < 10 then Char.ofNat (48 + n) else Char.ofNat (87 + n)

/-- The character that starts an escape sequence. -/
def escapeMark : Char :=
  Char.ofNat 92

/-- One character of a string literal, escaped as the database prints it. -/
def escapeChar (c : Char) : List Char :=
  match c.toNat with
  | 34 | 92 => [escapeMark, c]
  | 8 => [escapeMark, 'b']
  | 12 => [escapeMark, 'f']
  | 10 => [escapeMark, 'n']
  | 13 => [escapeMark, 'r']
  | 9 => [escapeMark, 't']
  | n =>
      if n < 32 then [escapeMark, 'u', '0', '0', hexDigit (n / 16), hexDigit (n % 16)]
      else [c]

/-- A string literal. -/
def quote (s : String) : String :=
  let mark := String.singleton (Char.ofNat 34)
  mark ++ String.ofList (s.toList.flatMap escapeChar) ++ mark

mutual

/-- The printed form of a document. -/
def render : Json → String
  | .null => "null"
  | .bool b => if b then "true" else "false"
  | .num text => text
  | .str text => quote text
  | .arr items => "[" ++ renderItems items ++ "]"
  | .obj members => "\x7b" ++ renderMembers members ++ "\x7d"

/-- The elements of an array, separated by a comma and a space. -/
def renderItems : List Json → String
  | [] => ""
  | [item] => render item
  | item :: items => render item ++ ", " ++ renderItems items

/-- The members of an object, separated by a comma and a space. -/
def renderMembers : List (String × Json) → String
  | [] => ""
  | [(key, value)] => quote key ++ ": " ++ render value
  | (key, value) :: members =>
      quote key ++ ": " ++ render value ++ ", " ++ renderMembers members

end

/-- The text of a document as `->>` returns it: null for a JSON null. -/
def text : Json → Option String
  | .null => none
  | .str s => some s
  | value => some (render value)

/-- The member of an object under a key. -/
def member? (key : String) : Json → Option Json
  | .obj members => (members.find? fun m => decide (m.1 = key)).map Prod.snd
  | _ => none

/-- `document ->> key`. -/
def getText (document : Json) (key : String) : Option String :=
  (document.member? key).bind text

/-- `document #>> path` for a path through objects. -/
def pathText (document : Json) : List String → Option String
  | [] => document.text
  | key :: path =>
      match document.member? key with
      | some value => value.pathText path
      | none => none

end Json
end MpvmApp
