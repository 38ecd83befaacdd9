import Sideload.Data.Value

/-!
Writing values as JSON.

Lists and records that are not empty take one line for each item, two blanks deeper than themselves.
-/

namespace Sideload.Json

/-- A digit of four bits, with a small letter from ten on. -/
def hexDigit (n : Nat) : Char := Char.ofNat (if n < 10 then 48 + n else 87 + n)

/-- One character inside a string: quotes, backslashes and controls are written as escapes. -/
def escapedChar (c : Char) : List Char :=
  if c = '"' then ['\\', '"']
  else if c = '\\' then ['\\', '\\']
  else if c = '\x08' then ['\\', 'b']
  else if c = '\x0c' then ['\\', 'f']
  else if c = '\n' then ['\\', 'n']
  else if c = '\r' then ['\\', 'r']
  else if c = '\t' then ['\\', 't']
  else if c.toNat < 0x20 then
    ['\\', 'u', '0', '0', hexDigit (c.toNat / 16), hexDigit (c.toNat % 16)]
  else [c]

def stringText (s : String) : List Char := '"' :: s.toList.flatMap escapedChar ++ ['"']

def indent (depth : Nat) : List Char := List.replicate (2 * depth) ' '

/-- Lines put together: every line but the last ends in a comma. -/
def joinLines : List (List Char) → List Char
  | [] => []
  | [line] => line
  | line :: lines => line ++ ',' :: '\n' :: joinLines lines

/-- What is between brackets: the lines that it has, each on its own. -/
def block (opening : Char) (depth : Nat) (lines : List (List Char)) (closing : Char) : List Char :=
  if lines.isEmpty then [opening, closing]
  else opening :: '\n' :: joinLines lines ++ '\n' :: indent depth ++ [closing]

mutual

/-- A value at a depth; what has no form in JSON is written as `null`. -/
def pretty (depth : Nat) : Data → List Char
  | .null => "null".toList
  | .bool b => (if b then "true" else "false").toList
  | .number text => text.toList
  | .string s => stringText s
  | .list ds => block '[' depth (itemLines (depth + 1) ds) ']'
  | .record ms => block '\x7b' depth (memberLines (depth + 1) ms) '\x7d'
  | .moment _ => "null".toList
  | .unreadable => "null".toList

/-- The items of a list, a line for each. -/
def itemLines (depth : Nat) : List Data → List (List Char)
  | [] => []
  | d :: ds => (indent depth ++ pretty depth d) :: itemLines depth ds

/-- The members of a record, a line for each. -/
def memberLines (depth : Nat) : List (String × Data) → List (List Char)
  | [] => []
  | (name, d) :: ms =>
    (indent depth ++ stringText name ++ ':' :: ' ' :: pretty depth d) :: memberLines depth ms

end

/-- A value as JSON text. -/
def text (d : Data) : String := String.ofList (pretty 0 d)

end Sideload.Json
