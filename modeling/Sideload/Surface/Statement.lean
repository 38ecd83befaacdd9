import Sideload.Surface.Pattern

/-!
The grammar of statements.

Simple statements share a line; compound ones have blocks. The rules for the former are over `ex`, the
rules of expressions; those for the latter also over `suite`, which takes a block with the colon before
it. The words `print`, `exec`, `type`, `match` and `async` begin statements of their own only where they
cannot be read as names.
-/

namespace Sideload.Surface

open Sideload.Surface.Parser

namespace Statement

variable (ex : Rules)

/-- Takes `one` again after each comma, as long as `ahead` says that there is another. -/
def moreAfterCommas (e : Expect) (ahead : Parser Bool) (one : Parser Unit) : Parser Unit :=
  loop do
    if ← Expression.comma e then
      if ← ahead then
        one
        return true
    return false

/-- One expression, with nothing made of it. -/
def expression (f : Follow) : Parser Unit := do
  let _ ← Expression.full ex f

/-! ### Assignments and expressions -/

/-- The signs that change a value in place. -/
def updateSigns : List String :=
  ["+=", "-=", "*=", "/=", "@=", "//=", "%=", "**=", ">>=", "<<=", "&=", "^=", "|="]

/-- Expressions, or an assignment to them. Gives the value that another assignment would get from it.
`fuel` bounds the assignments in a row. -/
def assigned : (fuel : Nat) → Parser (Expr × Statement)
  | 0 => failure
  | fuel + 1 => do
    if ← wordIs "yield" then
      let _ ← ex .yield Follow.inLine
      return (.other, .simple)
    let e ← ex .expressions Follow.inLine
    let value : Parser Expr := do
      advance 1 operandStart
      let (value, _) ← assigned fuel
      return value
    if ← nextIs "=" then
      guard e.isTarget
      return (.assignment, .assignment e false (some (← value)))
    if ← nextIs ":" then
      guard e.isTarget
      advance 1 operandStart
      let _ ← ex (.type true) Follow.inLine
      if ← nextIs "=" then return (.assignment, .assignment e true (some (← value)))
      return (.assignment, .assignment e true none)
    let cs ← upcoming
    match updateSigns.find? fun s => s.toList.isPrefixOf cs with
    | some s =>
      guard e.isTarget
      advance s.length operandStart
      let _ ← assigned fuel
      return (.other, .simple)
    | none => return (e, .simple)

/-- An expression statement: assignments are among them. -/
def expressions : Parser Statement := do
  let (_, s) ← assigned ex ((← remaining) + 2)
  return s

/-- Whether a simple statement can end here. -/
def ended : Parser Bool := return (← mark) = .newline || (← nextIs ";")

/-- An expression statement that ends where a simple statement can. -/
def wholeExpressions : Parser Statement := do
  let s ← expressions ex
  guard (← ended)
  return s

/-- Reads an expression statement if that succeeds, and otherwise something else. -/
def expressionsOr (other : Parser Statement) : Parser Statement := do
  match ← try_ (wholeExpressions ex) with
  | some s => return s
  | none => other

/-! ### Simple statements -/

/-- A word alone. -/
def bare (w : String) : Parser Statement := do
  keyword w Follow.inLine.expect
  return .simple

/-- Names after a word. -/
def names (w : String) : Parser Statement := do
  keyword w {}
  loop do
    let _ ← name Follow.inLine.expect
    Expression.comma {}
  return .simple

/-- A dotted name that is imported, perhaps under another name. -/
def imported (e : Expect) : Parser Unit := do
  Pattern.dottedName e
  if ← wordIs "as" then
    advance 2 {}
    let _ ← name e

/-- Imported names with commas between them, and perhaps one at the end. -/
def importedNames (e : Expect) : Parser Unit := do
  imported e
  moreAfterCommas e (return isName (← word)) (imported e)

def importModules : Parser Statement := do
  keyword "import" {}
  importedNames Follow.inLine.expect
  return .simple

/-- The word for names of the language to come. -/
def futureName : String := "__future__"

/-- The module that names are imported from: a dotted name, dots, or dots and a dotted name. -/
def origin : Parser Unit := do
  if ← nextIs "." then
    loop do
      if ← nextIs "." then
        advance 1 {}
        return true
      return false
    if isName (← word) then Pattern.dottedName {}
  else Pattern.dottedName {}

def importFrom : Parser Statement := do
  keyword "from" {}
  let future ← wordIs futureName
  if future then advance futureName.length {} else origin
  keyword "import" {}
  if ← nextIs "(" then
    advance 1 {}
    importedNames { closer := true }
    sign ")" Follow.inLine.expect
  else if (← nextIs "*") && !future then advance 1 Follow.inLine.expect
  else importedNames Follow.inLine.expect
  return .simple

def assertion : Parser Statement := do
  keyword "assert" operandStart
  loop do
    expression ex Follow.inLine
    Expression.comma operandStart
  return .simple

def deletion : Parser Statement := do
  keyword "del" operandStart
  let _ ← ex .expressions Follow.inLine
  return .simple

/-- Expressions, if there are any. -/
def optionalExpressions : Parser Unit := do
  if ← Expression.expressionAhead then
    let _ ← ex .expressions Follow.inLine

def returned : Parser Statement := do
  keyword "return" Follow.inLine.expectOperand
  optionalExpressions ex
  return .simple

def raised : Parser Statement := do
  keyword "raise" Follow.inLine.expectOperand
  optionalExpressions ex
  if ← wordIs "from" then
    advance 4 operandStart
    expression ex Follow.inLine
  return .simple

/-- Printing as a statement: to a file that comes after a sign, or of expressions. -/
def printed : Parser Statement := do
  let i ← get
  let more := moreAfterCommas Follow.inLine.expectOperand Expression.expressionAhead
    (expression ex Follow.inLine)
  keyword "print" Follow.inLine.expectOperand
  if (← nextIs ">>") && !(← nextIs ">>=") then
    advance 2 operandStart
    expression ex Follow.inLine
    more
    return .simple
  set i
  expressionsOr ex do
    keyword "print" Follow.inLine.expectOperand
    expression ex Follow.inLine
    more
    return .simple

/-- Running text as a statement. -/
def executed : Parser Statement :=
  expressionsOr ex do
    keyword "exec" Follow.inLine.expectOperand
    if (quote? (← upcoming)).isSome then Expression.oneString ex Follow.inLine
    else
      let _ ← name Follow.inLine.expect
    if ← wordIs "in" then
      advance 2 operandStart
      loop do
        expression ex Follow.inLine
        Expression.comma operandStart
    return .simple

/-- Another name for a type. -/
def typeAlias : Parser Statement :=
  expressionsOr ex do
    keyword "type" Follow.inLine.expectOperand
    let _ ← ex (.type true) Follow.more
    sign "=" operandStart
    let _ ← ex (.type true) Follow.inLine
    return .simple

/-- A simple statement. -/
def small : Parser Statement := do
  match ← word with
  | "import" => importModules
  | "from" => importFrom
  | "print" => printed ex
  | "assert" => assertion ex
  | "return" => returned ex
  | "del" => deletion ex
  | "raise" => raised ex
  | "pass" => bare "pass"
  | "break" => bare "break"
  | "continue" => bare "continue"
  | "global" => names "global"
  | "nonlocal" => names "nonlocal"
  | "exec" => executed ex
  | "type" => typeAlias ex
  | _ => expressions ex

/-- The simple statements of a line. -/
def line (next : Expect) : Parser (List Statement) := do
  let first ← small ex
  let more ← gather do
    if ← nextIs ";" then
      advance 1 { newline := true, string := true }
      if (← mark) = .newline then return none
      return some (← small ex)
    return none
  lineEnd next
  return first :: more

/-! ### Compound statements -/

/-- Takes the block that belongs to a statement, with its colon. What comes after the block is given. -/
abbrev Suite := Expect → Parser (List Statement)

variable (suite : Suite)

/-- A word, a condition and a block. -/
def conditioned (w : String) (next : Expect) : Parser (List Statement) := do
  keyword w operandStart
  expression ex Follow.more
  suite next

/-- A block after a word, if the word is there. -/
def optional (w : String) (next : Expect) : Parser (List (List Statement)) := do
  if ← wordIs w then
    keyword w {}
    return [← suite next]
  return []

/-- As many blocks as begin with a word. -/
def repeated (w : String) (block : Parser (List Statement)) : Parser (List (List Statement)) :=
  gather do
    if ← wordIs w then return some (← block)
    return none

def choice (next : Expect) : Parser Statement := do
  let first ← conditioned ex suite "if" next
  let others ← repeated "elif" (conditioned ex suite "elif" next)
  let last ← optional suite "else" next
  return .compound (first :: others ++ last)

def whileLoop (next : Expect) : Parser Statement := do
  let body ← conditioned ex suite "while" next
  return .compound (body :: (← optional suite "else" next))

def forLoop (next : Expect) : Parser Statement := do
  keyword "for" {}
  Expression.targets ex
  keyword "in" operandStart
  let _ ← ex .expressions Follow.more
  let body ← suite next
  return .compound (body :: (← optional suite "else" next))

/-- A block for exceptions: all, those of a kind, or groups of them after a star. -/
def handler (next : Expect) : Parser (List Statement) := do
  keyword "except" operandStart
  if ← nextIs "*" then advance 1 operandStart
  if ← Expression.expressionAhead then
    loop do
      expression ex Follow.more
      Expression.comma operandStart
  suite next

def guarded (next : Expect) : Parser Statement := do
  keyword "try" {}
  let body ← suite next
  let handlers ← repeated "except" (handler ex suite next)
  let others ← optional suite "else" next
  let last ← optional suite "finally" next
  return .compound (body :: handlers ++ others ++ last)

def managed (next : Expect) : Parser Statement := do
  keyword "with" operandStart
  expression ex Follow.more
  moreAfterCommas operandStart Expression.expressionAhead (expression ex Follow.more)
  return .compound [← suite next]

def function (isAsync : Bool) (next : Expect) : Parser Definition := do
  keyword "def" {}
  let n ← name {}
  if ← nextIs "[" then Expression.typeParameters ex Follow.more
  sign "(" { closer := true }
  let ps ← Expression.params ex false ")" Follow.inBrackets
  sign ")" {}
  if ← nextIs "->" then
    advance 2 operandStart
    let _ ← ex (.type false) Follow.more
  return .function isAsync n ps (← suite next)

def classDefinition (next : Expect) : Parser Definition := do
  keyword "class" {}
  let n ← name {}
  if ← nextIs "[" then Expression.typeParameters ex Follow.more
  if ← nextIs "(" then Expression.arguments ex false Follow.more
  return .classDef n (← suite next)

/-- A class or a function after its decorators. -/
def underDecorators (next : Expect) : Parser Statement := do
  let decorators ← gather do
    if ← nextIs "@" then
      advance 1 operandStart
      let e ← Expression.full ex Follow.inLine
      lineEnd {}
      return some e
    return none
  match ← word with
  | "class" => return .decorated decorators (← classDefinition ex suite next)
  | "async" =>
    advance 5 {}
    return .decorated decorators (← function ex suite true next)
  | _ => return .decorated decorators (← function ex suite false next)

/-- The patterns of a case with their condition and block. -/
def case : Parser (List Statement) := do
  keyword "case" operandStart
  let pattern := Pattern.parse ex ((← remaining) + 2) .whole Follow.more
  pattern
  moreAfterCommas operandStart (return !(← nextIs ":") && !(← wordIs "if")) pattern
  if ← wordIs "if" then
    advance 2 operandStart
    expression ex Follow.more
  suite { dedent := true }

/-- A `match` statement. Its block holds cases only. -/
def matched (next : Expect) : Parser Statement := do
  keyword "match" operandStart
  expression ex Follow.more
  moreAfterCommas operandStart Expression.expressionAhead (expression ex Follow.more)
  sign ":" { newline := true, indent := true }
  let blocks ← match ← mark with
    | .newline => pure []
    | .indent => do
      passMark { dedent := true }
      let blocks ← repeated "case" (case ex suite)
      guard ((← mark) = .dedent)
      pure blocks
    | _ => failure
  passMark next
  return .compound blocks

/-- A line that begins with a word which may be a name: an expression statement, if that is the whole
line, and otherwise something else. -/
def lineOr (next : Expect) (other : Parser Statement) : Parser (List Statement) := do
  match ← try_ (line ex next) with
  | some ss => return ss
  | none => return [← other]

/-- A statement with blocks after the word `async`. -/
def asynchronous (next : Expect) : Parser Statement := do
  keyword "async" {}
  match ← word with
  | "def" => return .definition (← function ex suite true next)
  | "for" => forLoop ex suite next
  | "with" => managed ex suite next
  | _ => failure

/-- A compound statement, or the simple statements of a line. -/
def statement (next : Expect) : Parser (List Statement) := do
  let one (s : Parser Statement) : Parser (List Statement) := return [← s]
  if ← nextIs "@" then one (underDecorators ex suite next)
  else match ← word with
  | "if" => one (choice ex suite next)
  | "while" => one (whileLoop ex suite next)
  | "for" => one (forLoop ex suite next)
  | "try" => one (guarded ex suite next)
  | "with" => one (managed ex suite next)
  | "def" => one (return .definition (← function ex suite false next))
  | "class" => one (return .definition (← classDefinition ex suite next))
  | "async" => lineOr ex next (asynchronous ex suite next)
  | "match" => lineOr ex next (matched ex suite next)
  | _ => line ex next

/-- Takes statements until `last` says that there are no more. -/
def statements (last : Parser Bool) (next : Expect) : Parser (List Statement) := do
  let groups ← gather do
    if ← last then return none
    return some (← statement ex suite next)
  return groups.flatten

/-- A block: nothing, lines of their own that are indented, or the rest of the line. Blocks are within
each other to the depth of `fuel`. -/
def block : (fuel : Nat) → Suite
  | 0, _ => failure
  | fuel + 1, next => do
    sign ":" { newline := true, indent := true, string := true }
    match ← mark with
    | .newline =>
      passMark next
      return []
    | .indent =>
      passMark (statementStart true)
      let body ← statements ex (block fuel) (return (← mark) = .dedent) (statementStart true)
      passMark next
      return body
    | _ => line ex next

/-- All statements of a text. -/
def all : Parser (List Statement) := do
  let depth := (← remaining) + 1
  modify (·.settled (statementStart false))
  statements ex (block ex depth) (return (← get).rest.isEmpty && (← mark) = .none) (statementStart false)

end Statement

end Sideload.Surface
