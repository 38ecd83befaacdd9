import Sideload.Toml.Scalar
import Sideload.Toml.Table

/-!
Reading TOML.

A text is a sequence of lines: headers, members and comments. Its value is a record.
-/

namespace Sideload.Toml

/-- No value is nested deeper than this, and no key has more parts. -/
def maxDepth : Nat := 79

/-! ### Keys -/

def isBareKeyChar (c : Char) : Bool := c.isAlphanum || c = '_' || c = '-'

/-- One part of a key. -/
def readKeyPart : List Char → Option (String × List Char)
  | '"' :: cs => readBasic [] cs
  | '\'' :: cs => readLiteral [] cs
  | cs => match cs.takeWhile isBareKeyChar with
    | [] => none
    | name => some (String.ofList name, cs.dropWhile isBareKeyChar)

/-- The parts of a key, blanks around each left out. -/
def readKeyParts : (fuel : Nat) → List Char → Option (List String × List Char)
  | 0, _ => none
  | fuel + 1, cs => do
    let (part, cs) ← readKeyPart (skipBlanks cs)
    match skipBlanks cs with
    | '.' :: cs => do
      let (parts, cs) ← readKeyParts fuel cs
      some (part :: parts, cs)
    | cs => some ([part], cs)

/-- A key: the path to a table, and a name in it. -/
def readKey (cs : List Char) : Option (List String × String × List Char) := do
  let (parts, cs) ← readKeyParts (maxDepth + 1) cs
  if parts.length ≤ maxDepth then
    match parts.getLast? with
    | some name => some (parts.dropLast, name, cs)
    | none => none
  else none

/-! ### Values -/

/-- Takes a comment up to the end of its line. -/
def skipComment (cs : List Char) : List Char := cs.dropWhile isPlain

/-- Leaves out blanks, line breaks and comments. -/
def skipFiller : (fuel : Nat) → List Char → List Char
  | 0, cs => cs
  | fuel + 1, cs =>
    match skipBlanks cs with
    | '#' :: cs => skipFiller fuel (skipComment cs)
    | cs => match newline? cs with
      | some cs => skipFiller fuel cs
      | none => cs

mutual

/-- Reads a value. `depth` is how much deeper values may be nested; `fuel` bounds the values in the text;
its length is enough. -/
def readValue : (fuel depth : Nat) → List Char → Option (Data × List Char)
  | 0, _, _ => none
  | fuel + 1, depth, cs =>
    match cs with
    | [] => none
    | '[' :: rest => match depth with
      | 0 => none
      | depth + 1 => do
        let (items, rest) ← readItems fuel depth rest
        some (.list items, rest)
    | '\x7b' :: rest => match depth with
      | 0 => none
      | depth + 1 =>
        match skipBlanks rest with
        | '\x7d' :: rest => some (.record [], rest)
        | rest => do
          let (members, rest) ← readInline fuel depth [] rest
          some (.record (membersData members), rest)
    | 't' :: _ => readWord "true" (.bool true) cs
    | 'f' :: _ => readWord "false" (.bool false) cs
    | 'i' :: _ => readWord "inf" (.number "inf") cs
    | 'n' :: _ => readWord "nan" (.number "nan") cs
    | c :: _ =>
      if c = '"' ∨ c = '\'' then do
        let (s, rest) ← readAnyString cs
        some (.string s, rest)
      else if c.isDigit ∨ c = '+' ∨ c = '-' then readMomentOrNumber cs
      else none

/-- Reads the items of a list up to its closing bracket; a comma may follow the last one. -/
def readItems : (fuel depth : Nat) → List Char → Option (List Data × List Char)
  | 0, _, _ => none
  | fuel + 1, depth, cs =>
    match skipFiller cs.length cs with
    | ']' :: rest => some ([], rest)
    | cs => do
      let (d, rest) ← readValue fuel depth cs
      match skipFiller rest.length rest with
      | ']' :: rest => some ([d], rest)
      | ',' :: rest => do
        let (ds, rest) ← readItems fuel depth rest
        some (d :: ds, rest)
      | _ => none

/-- Reads the members of an inline table up to its closing brace. -/
def readInline : (fuel depth : Nat) → Members → List Char → Option (Members × List Char)
  | 0, _, _, _ => none
  | fuel + 1, depth, ms, cs => do
    let (path, name, rest) ← readKey cs
    match rest with
    | '=' :: rest => do
      let (d, rest) ← readValue fuel depth (skipBlanks rest)
      let ms ← addDotted path name (.value d) ms
      match skipBlanks rest with
      | '\x7d' :: rest => some (ms, rest)
      | ',' :: rest => readInline fuel depth ms rest
      | _ => none
    | _ => none

end

/-! ### Lines -/

/-- The end of a line: blanks, perhaps a comment, and a line break unless the text ends. -/
def readLineEnd (cs : List Char) : Option (List Char) :=
  let cs := match skipBlanks cs with
    | '#' :: cs => skipComment cs
    | cs => cs
  match cs with
  | [] => some []
  | cs => newline? cs

/-- What has been read: all tables, and the path of the table that members go into. -/
structure Draft where
  members : Members
  current : List String

namespace Draft

def table (d : Draft) (path : List String) (name : String) : Option Draft :=
  (alterTable path (openTable name) d.members).map (⟨·, path ++ [name]⟩)

def element (d : Draft) (path : List String) (name : String) : Option Draft :=
  (alterTable path (openElement name) d.members).map (⟨·, path ++ [name]⟩)

def add (d : Draft) (path : List String) (name : String) (i : Item) : Option Draft :=
  (alterTable d.current (addDotted path name i) d.members).map (⟨·, d.current⟩)

end Draft

/-- Reads one line that is not blank. -/
def readLine (d : Draft) : List Char → Option (Draft × List Char)
  | '[' :: '[' :: cs => do
    let (path, name, cs) ← readKey cs
    match cs with
    | ']' :: ']' :: cs => some (← d.element path name, ← readLineEnd cs)
    | _ => none
  | '[' :: cs => do
    let (path, name, cs) ← readKey cs
    match cs with
    | ']' :: cs => some (← d.table path name, ← readLineEnd cs)
    | _ => none
  | cs => do
    let (path, name, rest) ← readKey cs
    match rest with
    | '=' :: rest => do
      let (v, rest) ← readValue (rest.length + 1) maxDepth (skipBlanks rest)
      some (← d.add path name (.value v), ← readLineEnd rest)
    | _ => none

/-- Reads lines up to the end of the text. Every line takes at least one character of it. -/
def readLines : (fuel : Nat) → Draft → List Char → Option Draft
  | 0, _, _ => none
  | fuel + 1, d, cs =>
    match skipBlanks cs with
    | [] => some d
    | '#' :: cs => do readLines fuel d (← readLineEnd (skipComment cs))
    | cs => match newline? cs with
      | some cs => readLines fuel d cs
      | none => do
        let (d, cs) ← readLine d cs
        readLines fuel d cs

/-- The record of a text. A mark of byte order at its start does not count. -/
def ofText? (s : String) : Option Data := do
  let cs := match s.toList with
    | '\uFEFF' :: cs => cs
    | cs => cs
  let d ← readLines (cs.length + 1) ⟨[], []⟩ cs
  some (.record (membersData d.members))

end Sideload.Toml
