import Sideload.Surface.Parser

/-!
The grammar of expressions.

Each rule is a definition of its own over `self`, which stands for the rules that contain themselves;
`parse` ties them together. The operands of arithmetic and comparison are primaries: names, literals,
brackets, and what is built from them by attributes, elements and calls.
-/

namespace Sideload.Surface

open Sideload.Surface.Parser

/-- What may follow an expression, besides what goes on with it: the end of a line, a closing bracket. -/
structure Follow where
  newline : Bool := false
  closer : Bool := false
  deriving DecidableEq

namespace Follow

/-- Something that is not part of the expression has to follow. -/
def more : Follow := {}

/-- A closing bracket may follow. -/
def inBrackets : Follow := { closer := true }

/-- The line may end. -/
def inLine : Follow := { newline := true }

/-- What is expected after an operand. -/
def expect (f : Follow) : Expect := { newline := f.newline, closer := f.closer }

/-- What is expected where an operand or the end may follow. -/
def expectOperand (f : Follow) : Expect := { newline := f.newline, closer := f.closer, string := true }

end Follow

/-- The rules that contain themselves. -/
inductive Rule where
  /-- An expression; `conditional` says whether it may end in a condition, `inLambda` whether the body of
  a function at its start may. -/
  | expression (conditional inLambda : Bool)
  /-- Expressions with commas. -/
  | expressions
  | operand
  | unary
  | yield
  | type (constrained : Bool)
  | hole
  deriving DecidableEq

abbrev Rules := Rule → Follow → Parser Expr

namespace Expression

/-- An expression without restrictions. -/
def full (self : Rules) (f : Follow) : Parser Expr := self (.expression true true) f

/-! ### What can come next -/

/-- The words that begin an expression and are no names. -/
def startWords : List String := ["not", "lambda", "None", "True", "False"]

/-- Whether an operand of arithmetic begins with these characters. -/
def startsPrimary (cs : List Char) : Bool :=
  match cs with
  | '.' :: c :: rest => c.isDigit || (c = '.' && rest.head? == some '.')
  | '*' :: rest => rest.head? != some '*' && rest.head? != some '='
  | c :: rest =>
    let w := String.ofList (wordAt (c :: rest))
    c.isDigit || isQuote c || ['(', '[', '\x7b', '+', '-', '~'].contains c || isExprName w ||
      ["None", "True", "False"].contains w
  | [] => false

/-- Whether an expression begins with these characters. -/
def startsExpression (cs : List Char) : Bool :=
  startsPrimary cs || startWords.contains (String.ofList (wordAt cs))

def expressionAhead : Parser Bool := return startsExpression (← upcoming)

/-- Whether the point is before `for` or `async for`. -/
def clauseAhead : Parser Bool := do
  if ← wordIs "for" then return true
  if ← wordIs "async" then
    let i ← get
    advance 5 {}
    let isFor ← wordIs "for"
    set i
    return isFor
  return false

/-- Takes a comma if there is one. -/
def comma (e : Expect) : Parser Bool := do
  if ← nextIs "," then
    advance 1 e
    return true
  return false

/-! ### Strings -/

/-- Takes the text of a format after its colon, up to the closing brace. -/
def formatSpec (self : Rules) : Parser Unit :=
  loop do
    let cs ← upcoming
    match cs with
    | '\x7b' :: _ =>
      let _ ← self .hole Follow.more
      return true
    | '\x7d' :: _ => return false
    | [] => failure
    | '\n' :: rest =>
      modify fun i => { i with rest := rest }
      return true
    | cs =>
      modify fun i => { i with rest := cs.dropWhile fun c => c ≠ '\x7b' && c ≠ '\x7d' && c ≠ '\n' }
      return true

/-- Takes a hole of a string with its braces: expressions, perhaps an equals sign, a conversion and a
format. The point is left just after the closing brace. -/
def hole (self : Rules) : Parser Expr := do
  advance 1 operandStart
  if ← wordIs "yield" then
    let _ ← self .yield Follow.inBrackets
  else
    let _ ← self .expressions Follow.inBrackets
  if ← nextIs "=" then advance 1 { closer := true }
  match ← upcoming with
  | '!' :: c :: _ =>
    guard ('a' ≤ c ∧ c ≤ 'z')
    advance 2 { closer := true }
  | _ => pure ()
  if ← nextIs ":" then
    modify fun i => { i with rest := i.rest.drop 1 }
    formatSpec self
  guard (← nextIs "\x7d")
  modify fun i => { i with rest := i.rest.drop 1 }
  return .other

/-- Takes one string. -/
def oneString (self : Rules) (f : Follow) : Parser Unit := do
  let some (q, rest) := quote? (← upcoming) | failure
  modify fun i => { i with rest := rest, inFormat := q.format }
  loop do
    match content q false (← get).rest with
    | none => failure
    | some (.closed rest) =>
      modify fun i => { i with rest := rest, inFormat := false }
      return false
    | some (.hole rest) =>
      modify fun i => { i with rest := '\x7b' :: rest }
      let _ ← self .hole Follow.more
      return true
  advance 0 f.expectOperand

/-- Takes strings that follow each other. -/
def strings (self : Rules) (f : Follow) : Parser Expr := do
  loop do
    if (quote? (← upcoming)).isSome then
      oneString self f
      return true
    return false
  return .string

/-! ### Brackets -/

/-- Expressions as one: several of them are a group if each can be assigned to. -/
def grouped (items : List Expr) : Expr := if items.all Expr.isTarget then .group else .other

/-- The things assigned to by a clause. -/
def targets (self : Rules) : Parser Unit := do
  loop do
    let e ← self .unary Follow.more
    guard e.isTarget
    if ← comma {} then return !(← wordIs "in")
    return false

/-- The clauses of a comprehension. -/
def clauses (self : Rules) : Parser Unit := do
  guard (← clauseAhead)
  loop do
    if ← clauseAhead then
      if ← wordIs "async" then advance 5 {}
      keyword "for" {}
      targets self
      keyword "in" operandStart
      loop do
        let _ ← self (.expression false false) Follow.inBrackets
        if ← comma Follow.inBrackets.expectOperand then
          return (← expressionAhead) && !(← clauseAhead)
        return false
      return true
    if ← wordIs "if" then
      advance 2 operandStart
      let _ ← self (.expression false true) Follow.inBrackets
      return true
    return false

/-- A starred item of a collection. -/
def starred (self : Rules) : Parser Expr := do
  sign "*" operandStart
  let e ← full self Follow.inBrackets
  return if e.isUnpackable then .unpacking else .other

/-- An item of a collection. -/
def item (self : Rules) : Parser Expr := do
  if ← wordIs "yield" then self .yield Follow.inBrackets
  else if ← nextIs "*" then starred self
  else full self Follow.inBrackets

/-- An item that clauses follow has to be an expression. -/
def firstItem (self : Rules) : Parser (Expr × Bool) := do
  let i ← get
  let e ← item self
  if ← clauseAhead then
    set i
    let _ ← full self Follow.inBrackets
    clauses self
    return (.other, true)
  return (e, false)

/-- Items with commas, up to a closing bracket; the last comma counts for nothing. -/
def items (self : Rules) : Parser (List Expr) :=
  gather do
    if ← comma Follow.inBrackets.expectOperand then
      if (← expressionAhead) || (← wordIs "yield") then return some (← item self)
    return none

/-- What is between round or square brackets. -/
def collection (self : Rules) (opening closing : String) (f : Follow) : Parser Expr := do
  sign opening Follow.inBrackets.expectOperand
  if ← nextIs closing then
    advance 1 f.expect
    return .group
  let (e, comprehension) ← firstItem self
  let more ← if comprehension then pure [] else items self
  sign closing f.expect
  return if comprehension then .other else grouped (e :: more)

/-- What is between braces: a set or a dictionary. -/
def braces (self : Rules) (f : Follow) : Parser Expr := do
  sign "\x7b" Follow.inBrackets.expectOperand
  let entry : Parser Unit := do
    if ← nextIs "**" then
      advance 2 operandStart
      let _ ← full self Follow.inBrackets
    else
      let _ ← full self Follow.more
      sign ":" operandStart
      let _ ← full self Follow.inBrackets
  let entries : Parser Unit := loop do
    if ← comma Follow.inBrackets.expectOperand then
      if (← expressionAhead) || (← nextIs "**") then
        entry
        return true
    return false
  if ← nextIs "\x7d" then pure ()
  else if ← nextIs "," then advance 1 { closer := true }
  else if ← nextIs "**" then
    entry
    entries
  else
    let (_, comprehension) ← firstItem self
    if comprehension then pure ()
    else if ← nextIs ":" then
      advance 1 operandStart
      let _ ← full self Follow.inBrackets
      if ← clauseAhead then clauses self else entries
    else
      let _ ← items self
  sign "\x7d" f.expect
  return .other

/-! ### Trailers -/

/-- Takes the name of a keyword argument and the equals sign after it, if they are there. -/
def argumentName : Parser Bool := do
  let i ← get
  let w ← word
  if isExprName w then
    advance w.length { closer := true }
    if (← nextIs "=") && !(← nextIs "==") then
      advance 1 operandStart
      return true
  set i
  return false

/-- One argument of a call. -/
def argument (self : Rules) : Parser Unit := do
  if ← nextIs "**" then
    advance 2 operandStart
    let _ ← full self Follow.inBrackets
  else if ← nextIs "*" then
    let _ ← starred self
  else
    let _ ← argumentName
    let _ ← full self Follow.inBrackets

/-- The arguments of a call with their brackets. -/
def arguments (self : Rules) (comprehension : Bool) (f : Follow) : Parser Unit := do
  sign "(" Follow.inBrackets.expectOperand
  if ← nextIs "," then advance 1 { closer := true }
  else if !(← nextIs ")") then
    let i ← get
    argument self
    if comprehension && (← clauseAhead) then
      set i
      let _ ← full self Follow.inBrackets
      clauses self
    else
      loop do
        if ← comma Follow.inBrackets.expectOperand then
          if (← expressionAhead) || (← nextIs "**") then
            argument self
            return true
        return false
  sign ")" f.expect

/-- One element of a subscript: an expression or a slice. -/
def element (self : Rules) : Parser Unit := do
  let part : Parser Unit := do
    if ← expressionAhead then
      let _ ← full self Follow.inBrackets
  guard ((← expressionAhead) || (← nextIs ":"))
  part
  if ← nextIs ":" then
    advance 1 Follow.inBrackets.expectOperand
    part
    if ← nextIs ":" then
      advance 1 Follow.inBrackets.expectOperand
      part

/-- The elements of a subscript with their brackets. -/
def subscript (self : Rules) (f : Follow) : Parser Unit := do
  sign "[" operandStart
  element self
  loop do
    if ← comma Follow.inBrackets.expectOperand then
      if !(← nextIs "]") then
        element self
        return true
    return false
  sign "]" f.expect

/-- Attributes, elements and calls that follow a primary. The answer also says whether the part of it up
to some point is a name, an attribute or an element. -/
def trailers (self : Rules) (f : Follow) : (fuel : Nat) → Expr → Bool → Parser (Expr × Bool)
  | 0, _, _ => failure
  | fuel + 1, e, placed => do
    match ← upcoming with
    | '.' :: _ =>
      advance 1 {}
      let _ ← name f.expect
      trailers self f fuel .place true
    | '[' :: _ =>
      subscript self f
      trailers self f fuel .place true
    | '(' :: _ =>
      arguments self true f
      trailers self f fuel .other placed
    | _ => return (e, placed)

/-! ### Primaries -/

def atom (self : Rules) (f : Follow) : Parser Expr := do
  let cs ← upcoming
  if (quote? cs).isSome then strings self f
  else match number? cs with
  | some (e, rest) =>
    advance (cs.length - rest.length) f.expect
    return e
  | none =>
    match cs with
    | '(' :: _ => collection self "(" ")" f
    | '[' :: _ => collection self "[" "]" f
    | '\x7b' :: _ => braces self f
    | '.' :: '.' :: '.' :: _ =>
      advance 3 f.expect
      return .other
    | _ =>
      match ← word with
      | "None" =>
        advance 4 f.expect
        return .none_
      | "True" =>
        advance 4 f.expect
        return .true_
      | "False" =>
        advance 5 f.expect
        return .false_
      | _ => return .name (← exprName f.expect)

def primary (self : Rules) (f : Follow) : Parser (Expr × Bool) := do
  let e ← atom self f
  trailers self f ((← remaining) + 2) e (match e with
    | .name _ => true
    | _ => false)

/-- A star and a name, attribute or element; what is built from that is an operand like any other. -/
def unpacked (self : Rules) (f : Follow) : Parser Expr := do
  sign "*" operandStart
  let (e, placed) ← primary self f
  guard placed
  return if e.isUnpackable then .unpacking else .other

/-- Takes `await` if it is no name here. -/
def await (self : Rules) (f : Follow) : Parser (Option Expr) := do
  if ← wordIs "await" then
    let i ← get
    advance 5 f.expectOperand
    if startsPrimary (← upcoming) then
      let _ ← self .unary f
      return some .other
    set i
  return none

/-- An operand of arithmetic. -/
def unary (self : Rules) (f : Follow) : Parser Expr := do
  match ← upcoming with
  | '+' :: _ | '-' :: _ | '~' :: _ =>
    advance 1 operandStart
    let _ ← self .unary f
    return .other
  | '*' :: _ => unpacked self f
  | _ =>
    match ← await self f with
    | some e => return e
    | none => return (← primary self f).1

/-! ### Operators -/

/-- The length of the arithmetic operator at the front, or zero. One before an equals sign is none. -/
def operatorLength (cs : List Char) : Nat :=
  let sized (n : Nat) : Nat := if (cs.drop n).head? = some '=' then 0 else n
  match cs with
  | '*' :: '*' :: _ | '/' :: '/' :: _ | '<' :: '<' :: _ | '>' :: '>' :: _ => sized 2
  | c :: _ => if ['+', '-', '*', '@', '/', '%', '|', '&', '^'].contains c then sized 1 else 0
  | [] => 0

/-- Operands with arithmetic operators between them. -/
def binary (self : Rules) (f : Follow) : Parser Expr := do
  let e ← unary self f
  if operatorLength (← upcoming) = 0 then return e
  loop do
    let n := operatorLength (← upcoming)
    if n = 0 then return false
    advance n operandStart
    let _ ← unary self f
    return true
  return .other

/-- Takes a comparison operator if there is one. -/
def comparison? : Parser Bool := do
  let take (n : Nat) : Parser Bool := do
    advance n operandStart
    return true
  match ← upcoming with
  | '=' :: '=' :: _ | '!' :: '=' :: _ | '<' :: '>' :: _ => take 2
  | '<' :: '=' :: _ | '>' :: '=' :: _ => take 2
  | '<' :: '<' :: _ | '>' :: '>' :: _ => return false
  | '<' :: _ | '>' :: _ => take 1
  | _ =>
    match ← word with
    | "in" => take 2
    | "not" =>
      advance 3 {}
      keyword "in" operandStart
      return true
    | "is" =>
      advance 2 operandStart
      if ← wordIs "not" then advance 3 operandStart
      return true
    | _ => return false

def comparison (self : Rules) (f : Follow) : Parser Expr := do
  let e ← binary self f
  if !(← comparison?) then return e
  loop do
    let _ ← binary self f
    comparison?
  return .other

/-! ### Expressions -/

/-- An operand and those after it, with `and` or `or` between them. -/
def boolean (self : Rules) (f : Follow) : Parser Expr := do
  let connective : Parser Bool := do
    if ← wordIs "and" then
      advance 3 operandStart
      return true
    if ← wordIs "or" then
      advance 2 operandStart
      return true
    return false
  let e ← self .operand f
  if !(← connective) then return e
  loop do
    let _ ← self .operand f
    connective
  return .other

/-- A name, a colon with an equals sign, and a value. -/
def named (self : Rules) (f : Follow) : Parser (Option Expr) := do
  let i ← get
  let w ← word
  if isExprName w then
    advance w.length f.expect
    if ← nextIs ":=" then
      advance 2 operandStart
      let _ ← boolean self f
      return some .other
    set i
  return none

/-- Types after a colon, an arrow, or between brackets. -/
def typeParameters (self : Rules) (f : Follow) : Parser Unit := do
  sign "[" operandStart
  let _ ← self (.type true) Follow.inBrackets
  loop do
    if ← comma Follow.inBrackets.expectOperand then
      if !(← nextIs "]") then
        let _ ← self (.type true) Follow.inBrackets
        return true
    return false
  sign "]" f.expect

/-- One type without what may follow it. The answer is whether it is an expression. -/
def typeAtom (self : Rules) (f : Follow) : Parser Bool := do
  if ← nextIs "**" then
    advance 2 {}
    let _ ← name f.expect
    return false
  let w ← word
  if isName w && w != "print" && w != "exec" && w != "match" then
    let i ← get
    advance w.length f.expect
    if ← nextIs "[" then
      typeParameters self f
      return false
    set i
  let _ ← full self f
  return true

/-- A type. `constrained` says whether a colon may go on with it. -/
def type (self : Rules) (constrained : Bool) (f : Follow) : Parser Expr := do
  let _ ← typeAtom self f
  loop do
    match ← upcoming with
    | '|' :: _ =>
      advance 1 operandStart
      let _ ← typeAtom self f
      return true
    | '.' :: _ =>
      advance 1 {}
      let _ ← name f.expect
      return true
    | ':' :: _ =>
      if constrained && !(← nextIs ":=") then
        advance 1 operandStart
        let _ ← typeAtom self f
        return true
      return false
    | _ => return false
  return .other

/-- The text that was taken between two points. -/
def taken (before after : List Char) : String :=
  String.ofList (before.take (before.length - after.length))

/-- Names in brackets as a parameter. The answer is how they are written. -/
def bracketedNames (self : Rules) : Parser String := do
  let before ← upcoming
  let e ← collection self "(" ")" Follow.inBrackets
  guard (e = .group)
  let after := (← get).rest
  let text := taken before after
  return String.ofList (text.toList.reverse.dropWhile (· ≠ ')')).reverse

/-- One parameter. `inLambda` rules out annotations. `f` is what may follow it besides a comma. -/
def param (self : Rules) (inLambda : Bool) (f : Follow) : Parser Param := do
  let annotation : Parser Bool := do
    if !inLambda && (← nextIs ":") then
      advance 1 operandStart
      let _ ← self (.type true) f
      return true
    return false
  let default : Parser Bool := do
    if ← nextIs "=" then
      advance 1 operandStart
      let _ ← full self f
      return true
    return false
  match ← upcoming with
  | '*' :: '*' :: _ =>
    advance 2 operandStart
    let (e, _) ← primary self f
    guard e.isUnpackable
    return if ← annotation then .annotated .keywords else .keywords
  | '*' :: _ =>
    advance 1 { closer := f.closer, string := true }
    if (← nextIs ",") || (← nextIs ")") || (inLambda && (← nextIs ":")) then return .star
    let (e, _) ← primary self f
    guard e.isUnpackable
    return if ← annotation then .annotated .rest else .rest
  | '/' :: _ =>
    advance 1 f.expect
    return .slash
  | '(' :: _ =>
    let text ← bracketedNames self
    return .bracketed text (← default)
  | _ =>
    let n ← name f.expect
    let annotated ← annotation
    let defaulted ← default
    return match annotated, defaulted with
      | false, false => .name n
      | true, false => .annotated (.name n)
      | false, true => .defaulted n
      | true, true => .annotatedDefaulted n

/-- Parameters with commas, up to `closing`. -/
def params (self : Rules) (inLambda : Bool) (closing : String) (f : Follow) : Parser (List Param) := do
  if ← nextIs closing then return []
  let first ← param self inLambda f
  let more ← gather do
    if ← comma { closer := f.closer } then
      if !(← nextIs closing) then return some (← param self inLambda f)
    return none
  return first :: more

/-- A function without a name. -/
def lambda (self : Rules) (conditional : Bool) (f : Follow) : Parser Expr := do
  keyword "lambda" {}
  let _ ← params self true ":" Follow.more
  sign ":" operandStart
  let _ ← self (.expression conditional conditional) f
  return .other

/-- An operand of `and` and `or`. -/
def operand (self : Rules) (f : Follow) : Parser Expr := do
  match ← word with
  | "not" =>
    advance 3 operandStart
    let _ ← self .operand f
    return .other
  | "lambda" => lambda self true f
  | _ =>
    match ← named self f with
    | some e => return e
    | none => comparison self f

/-- An expression with `as` and conditions. -/
def expression (self : Rules) (conditional inLambda : Bool) (f : Follow) : Parser Expr := do
  if !inLambda && (← wordIs "lambda") then return ← lambda self false f
  let e ← boolean self f
  let aliases : Parser Bool := do
    let some () ← try_ (keyword "as" operandStart) | return false
    loop do
      let _ ← boolean self f
      if ← wordIs "as" then
        advance 2 operandStart
        return true
      return false
    return true
  let aliased ← aliases
  if conditional && (← wordIs "if") then
    advance 2 operandStart
    let _ ← full self Follow.more
    keyword "else" operandStart
    let _ ← full self f
    return .other
  return if aliased then .other else e

/-- Expressions with commas, of which the last may be followed by nothing. -/
def expressions (self : Rules) (f : Follow) : Parser Expr := do
  let e ← full self f
  if !(← nextIs ",") then return e
  let more ← gather do
    if ← comma f.expectOperand then
      if ← expressionAhead then return some (← full self f)
    return none
  return grouped (e :: more)

/-- A yield expression. -/
def yield (self : Rules) (f : Follow) : Parser Expr := do
  keyword "yield" f.expectOperand
  if ← wordIs "from" then
    advance 4 operandStart
    let _ ← full self f
  else if ← expressionAhead then
    let _ ← self .expressions f
  return .other

/-- The rules by name. -/
def rule (self : Rules) : Rules
  | .expression conditional inLambda => expression self conditional inLambda
  | .expressions => expressions self
  | .operand => operand self
  | .unary => unary self
  | .yield => yield self
  | .type constrained => type self constrained
  | .hole => fun _ => hole self

/-- The rules, applied within each other at most `fuel` times. -/
def parse : (fuel : Nat) → Rules
  | 0 => fun _ _ => failure
  | fuel + 1 => rule (parse fuel)

end Expression

end Sideload.Surface
