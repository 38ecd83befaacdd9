import Sideload.Text.Identifier

/-!
The layout of a module's text: lines and blocks.

Where a line ends, or a block begins or ends, there is a mark between two lexemes. Which marks are
possible depends on what the grammar expects at that point: where it expects no end of line, line breaks
are blanks like any other. A block ends when a line is less indented than the block, and only one block
ends at a time; a line that is more indented than its block is as good as any.
-/

namespace Sideload.Surface

/-- A point between two lexemes: no mark, or the mark that comes next. -/
inductive Mark where
  | none
  | newline
  | indent
  | dedent
  deriving DecidableEq, Inhabited

/-- What the grammar expects at a point. -/
structure Expect where
  newline : Bool := false
  indent : Bool := false
  dedent : Bool := false
  /-- A string may begin here. -/
  string : Bool := false
  /-- A closing bracket may stand here. -/
  closer : Bool := false
  deriving DecidableEq

/-- Text that is being read: what is left of it, the mark that comes first, the indentations of the open
blocks, and whether the string that was begun last has holes. -/
structure Input where
  rest : List Char
  mark : Mark := .none
  levels : List Nat := [0]
  inFormat : Bool := false
  deriving Inhabited

/-- What is seen on the way to the next lexeme: whether a line ended, the indentation, and the indentation
of the first comment that has a line of its own. -/
structure Margin where
  lineEnd : Bool
  indent : Nat
  comment : Option Nat

/-- Characters that cannot be seen. A zero character is not one of them. -/
def isFiller (c : Char) : Bool :=
  (0x09 ≤ c.toNat && c.toNat ≤ 0x0D) || c = ' ' || c = '\u200B' || c = '\u2060' || c = '\uFEFF'

/-- How much a tab indents. -/
def tabWidth : Nat := 8

/-- The text after a comment line. -/
def afterComment (cs : List Char) : List Char :=
  (cs.dropWhile fun c => c ≠ '\n' && c ≠ '\x00').drop 1

/-- Measures the margin before the next lexeme. Comments are looked through only where a mark may come.
Nothing comes of it if a comment follows on the same line, or a backslash that is not at the end of a
line. -/
def margin (comments : Bool) : (fuel : Nat) → Margin → List Char → Option (Margin × List Char)
  | 0, m, cs => some (m, cs)
  | _, m, [] => some ({ m with lineEnd := true, indent := 0 }, [])
  | fuel + 1, m, c :: cs =>
    if c = '\n' then margin comments fuel { m with lineEnd := true, indent := 0 } cs
    else if c = ' ' then margin comments fuel { m with indent := m.indent + 1 } cs
    else if c = '\t' then margin comments fuel { m with indent := m.indent + tabWidth } cs
    else if c = '\r' ∨ c = '\x0c' then margin comments fuel { m with indent := 0 } cs
    else if c = '#' ∧ comments then
      if m.lineEnd then
        margin comments fuel
          { m with indent := 0, comment := m.comment.or (some m.indent) } (afterComment cs)
      else none
    else if c = '\\' then
      match cs with
      | '\r' :: '\n' :: cs => margin comments fuel m cs
      | ['\r'] => margin comments fuel m []
      | '\n' :: cs => margin comments fuel m cs
      | [] => margin comments fuel m []
      | _ => none
    else some (m, c :: cs)

def isQuote (c : Char) : Bool := c = '"' || c = '\'' || c.toNat = 0x60

/-- The mark at a point, and the indentations of the open blocks after it. -/
def markAt (e : Expect) (i : Input) : Mark × List Nat :=
  match margin (e.indent || e.dedent || e.newline) (i.rest.length + 1) ⟨false, 0, .none⟩ i.rest with
  | .none => (.none, i.levels)
  | some (m, after) =>
    if !m.lineEnd then (.none, i.levels)
    else
      let level := i.levels.headD 0
      let quoted := e.string && (after.head?.map isQuote).getD false
      if e.indent && level < m.indent then (.indent, m.indent :: i.levels)
      else if (e.dedent || (!e.newline && !quoted && !e.closer)) && m.indent < level && !i.inFormat &&
          (m.comment.map fun c => decide (c < level)).getD true then
        (.dedent, i.levels.tail)
      else if e.newline then (.newline, i.levels)
      else (.none, i.levels)

/-- Leaves out blanks, comments and joined lines until there is a mark or a lexeme. -/
def settle (e : Expect) : (fuel : Nat) → Input → Input
  | 0, i => i
  | fuel + 1, i =>
    match markAt e i with
    | (.none, _) =>
      match i.rest.dropWhile isFiller with
      | '#' :: cs => settle e fuel { i with rest := cs.dropWhile (· ≠ '\n'), mark := .none }
      | '\\' :: '\n' :: cs => settle e fuel { i with rest := cs, mark := .none }
      | '\\' :: '\r' :: '\n' :: cs => settle e fuel { i with rest := cs, mark := .none }
      | '\\' :: '\x00' :: cs => settle e fuel { i with rest := cs, mark := .none }
      | ['\\'] => { i with rest := [], mark := .none }
      | cs => { i with rest := cs, mark := .none }
    | (mark, levels) => { i with mark := mark, levels := levels }

/-- The input with the point moved to the next mark or lexeme. -/
def Input.settled (i : Input) (e : Expect) : Input := settle e (i.rest.length + 1) i

end Sideload.Surface
