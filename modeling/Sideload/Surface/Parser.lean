import Sideload.Surface.Lexeme

/-!
Reading lexemes in sequence.

A parser starts at a settled point, takes lexemes from there, and leaves a settled point behind. After
each lexeme it says what the grammar expects next, because the layout depends on that.
-/

namespace Sideload.Surface

abbrev Parser := StateT Input Option

namespace Parser

variable {α : Type}

/-- What is expected at the start of a statement. -/
def statementStart (inBlock : Bool) : Expect := { dedent := inBlock, string := true }

/-- What is expected where an operand has to follow. -/
def operandStart : Expect := { string := true }

/-- The text at the point; none if a mark comes first. -/
def upcoming : Parser (List Char) := do
  let i ← get
  return if i.mark = .none then i.rest else []

def mark : Parser Mark := return (← get).mark

/-- Moves the point over some characters and to what comes after them. -/
def advance (n : Nat) (e : Expect) : Parser Unit :=
  modify fun i => ({ i with rest := i.rest.drop n, mark := .none }).settled e

/-- Moves the point past the mark. -/
def passMark (e : Expect) : Parser Unit := advance 0 e

def nextIs (s : String) : Parser Bool := return s.toList.isPrefixOf (← upcoming)

/-- Takes a sign. -/
def sign (s : String) (e : Expect) : Parser Unit := do
  guard (← nextIs s)
  advance s.length e

/-- The word at the point. -/
def word : Parser String := return String.ofList (wordAt (← upcoming))

def wordIs (w : String) : Parser Bool := return (← word) == w

/-- Takes a word. -/
def keyword (w : String) (e : Expect) : Parser Unit := do
  guard (← wordIs w)
  advance w.length e

/-- Takes a word that can be a name. -/
def identifier (canBe : String → Bool) (e : Expect) : Parser Ident := do
  let w ← word
  guard (canBe w)
  let some n := Ident.ofText? w | failure
  advance w.length e
  return n

/-- Takes a name. -/
def name (e : Expect) : Parser Ident := identifier isName e

/-- Takes a name as it may stand in an expression. -/
def exprName (e : Expect) : Parser Ident := identifier isExprName e

/-- Runs a parser; if it fails, nothing has been taken. -/
def try_ (p : Parser α) : Parser (Option α) := fun i =>
  match p i with
  | some (a, i') => some (some a, i')
  | none => some (none, i)

/-- Takes the mark of the end of a line. -/
def lineEnd (e : Expect) : Parser Unit := do
  guard ((← mark) = .newline)
  passMark e

/-- How many characters are left; a loop that takes one each time ends within that. -/
def remaining : Parser Nat := return (← get).rest.length

/-- Runs `step` until it answers no. `fuel` bounds the rounds. -/
def repeatWhile (step : Parser Bool) : (fuel : Nat) → Parser Unit
  | 0 => failure
  | fuel + 1 => do if ← step then repeatWhile step fuel

/-- Runs `step` until it gives nothing, and collects what it gives. -/
def collect (step : Parser (Option α)) : (fuel : Nat) → Parser (List α)
  | 0 => failure
  | fuel + 1 => do
    match ← step with
    | none => return []
    | some a => return a :: (← collect step fuel)

/-- As many rounds as there can be. -/
def loop (step : Parser Bool) : Parser Unit := do repeatWhile step ((← remaining) + 2)

def gather (step : Parser (Option α)) : Parser (List α) := do collect step ((← remaining) + 2)

end Parser

end Sideload.Surface
