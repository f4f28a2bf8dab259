import Panadapter.Json.Tree

/-! # Writing a document

Two forms of one tree: on one line without blanks, or with every item and member on a line of its own, indented by two
blanks a level. Strings escape the quote, the backslash and the control characters, and nothing else.

* `Tree.compact`, `Tree.pretty`: the two forms.
-/

namespace Panadapter.Json

/-- The hexadecimal digit of a number below sixteen. -/
def hexDigit (n : Nat) : Char := if n < 10 then Char.ofNat ('0'.toNat + n) else Char.ofNat ('a'.toNat + n - 10)

/-- A character inside a string. -/
def escape (c : Char) : List Char :=
  if c = '"' then ['\\', '"']
  else if c = '\\' then ['\\', '\\']
  else if c = '\x08' then ['\\', 'b']
  else if c = '\x0c' then ['\\', 'f']
  else if c = '\n' then ['\\', 'n']
  else if c = '\r' then ['\\', 'r']
  else if c = '\t' then ['\\', 't']
  else if c < ' ' then ['\\', 'u', '0', '0', hexDigit (c.toNat / 16), hexDigit (c.toNat % 16)]
  else [c]

/-- A string in quotes. -/
def quote (s : String) : List Char := '"' :: (s.toList.flatMap escape ++ ['"'])

/-- What stands between the parts of a value. -/
structure Spacing where
  /-- The line break in front of an item or a closing bracket, at a depth. -/
  lineBreak : Nat → List Char
  afterColon : List Char

namespace Spacing

/-- No blanks at all. -/
def compact : Spacing := ⟨fun _ => [], []⟩

/-- A line for every item, two blanks a level. -/
def pretty : Spacing := ⟨fun depth => '\n' :: List.replicate (2 * depth) ' ', [' ']⟩

end Spacing

namespace Tree

mutual

/-- A value at a depth. A string or name that was lost and a place where a text went wrong have no form. -/
def write (sp : Spacing) (depth : Nat) : Tree → List Char
  | null => "null".toList
  | bool true => "true".toList
  | bool false => "false".toList
  | number n => n.text
  | string s => quote s
  | surrogate => []
  | array [] => ['[', ']']
  | array (t :: rest) =>
    '[' :: sp.lineBreak (depth + 1) ++ write sp (depth + 1) t ++ writeItems sp (depth + 1) rest
      ++ sp.lineBreak depth ++ [']']
  | object [] => ['\x7b', '\x7d']
  | object ((name, t) :: rest) =>
    '\x7b' :: sp.lineBreak (depth + 1) ++ quote name ++ ':' :: sp.afterColon ++ write sp (depth + 1) t
      ++ writeMembers sp (depth + 1) rest ++ sp.lineBreak depth ++ ['\x7d']
  | nameless _ => []
  | broken => []
  | cut => []

/-- The items after the first one, each behind a comma. -/
def writeItems (sp : Spacing) (depth : Nat) : List Tree → List Char
  | [] => []
  | t :: rest => ',' :: sp.lineBreak depth ++ write sp depth t ++ writeItems sp depth rest

/-- The members after the first one, each behind a comma. -/
def writeMembers (sp : Spacing) (depth : Nat) : List (String × Tree) → List Char
  | [] => []
  | (name, t) :: rest =>
    ',' :: sp.lineBreak depth ++ quote name ++ ':' :: sp.afterColon ++ write sp depth t ++ writeMembers sp depth rest

end

/-- The value on one line. -/
def compact (t : Tree) : String := String.ofList (t.write .compact 0)

/-- The value with a line for every item and member. -/
def pretty (t : Tree) : String := String.ofList (t.write .pretty 0)

end Tree

end Panadapter.Json
