import Sideload.Surface.Expression

/-!
The grammar of the patterns that the cases of a `match` statement begin with.

Nothing of a pattern counts for the surface of a module, so its parsers only take it.
-/

namespace Sideload.Surface

open Sideload.Surface.Parser

namespace Pattern

/-- Takes names with dots between them. -/
def dottedName (e : Expect) : Parser Unit :=
  loop do
    let _ ← name e
    if ← nextIs "." then
      advance 1 {}
      return true
    return false

/-- Takes a number without a sign. -/
def number (f : Follow) : Parser Unit := do
  let cs ← upcoming
  let some (_, rest) := number? cs | failure
  advance (cs.length - rest.length) f.expect

/-- Takes a number with an optional minus sign, and an imaginary part if there is one. -/
def signedNumber (f : Follow) : Parser Unit := do
  if ← nextIs "-" then advance 1 {}
  number f
  if (← nextIs "+") || (← nextIs "-") then
    advance 1 {}
    number f

/-- Takes what `one` takes as often as it comes, with commas between and an optional one at the end, and
the closing bracket. -/
def upTo (closing : String) (one : Parser Unit) (f : Follow) : Parser Unit := do
  loop do
    if ← nextIs closing then return false
    one
    if ← nextIs "," then
      advance 1 Follow.inBrackets.expectOperand
      return true
    return false
  sign closing f.expect

/-- Takes one or two stars and a name. -/
def splat (f : Follow) : Parser Unit := do
  advance (if ← nextIs "**" then 2 else 1) {}
  let _ ← name f.expect

/-- The rules that contain themselves: a whole pattern, and one without a name for what it matches. -/
inductive Rule where
  | whole
  | plain
  deriving DecidableEq

abbrev Rules := Rule → Follow → Parser Unit

/-- A key with its pattern, or two stars and a name. -/
def entry (self : Rules) : Parser Unit := do
  if ← nextIs "*" then splat Follow.inBrackets
  else
    self .plain Follow.more
    sign ":" operandStart
    self .whole Follow.inBrackets

/-- A pattern without bars. -/
def simple (ex : Surface.Rules) (self : Rules) (f : Follow) : Parser Unit := do
  let cs ← upcoming
  let inside := self .whole Follow.inBrackets
  if (quote? cs).isSome then
    let _ ← Expression.strings ex f
  else match cs with
  | '*' :: _ => splat f
  | '[' :: _ =>
    advance 1 Follow.inBrackets.expectOperand
    upTo "]" inside f
  | '(' :: _ =>
    advance 1 Follow.inBrackets.expectOperand
    upTo ")" inside f
  | '\x7b' :: _ =>
    advance 1 Follow.inBrackets.expectOperand
    upTo "\x7d" (entry self) f
  | '-' :: _ => signedNumber f
  | _ =>
    if (number? cs).isSome then signedNumber f
    else
      let w ← word
      if ["None", "True", "False"].contains w then advance w.length f.expect
      else
        dottedName f.expect
        if ← nextIs "(" then
          advance 1 Follow.inBrackets.expectOperand
          upTo ")" inside f

/-- Patterns with bars between them. -/
def plain (ex : Surface.Rules) (self : Rules) (f : Follow) : Parser Unit :=
  loop do
    simple ex self f
    if ← nextIs "|" then
      advance 1 operandStart
      return true
    return false

/-- A pattern, perhaps for a keyword, and the names for what it matches. -/
def whole (ex : Surface.Rules) (self : Rules) (f : Follow) : Parser Unit := do
  let i ← get
  let w ← word
  if isName w then
    advance w.length {}
    if ← nextIs "=" then advance 1 operandStart else set i
  plain ex self f
  loop do
    if ← wordIs "as" then
      advance 2 {}
      let _ ← name f.expect
      return true
    return false

def rule (ex : Surface.Rules) (self : Rules) : Rules
  | .whole => whole ex self
  | .plain => plain ex self

/-- Patterns within each other to the depth of `fuel`. -/
def parse (ex : Surface.Rules) : (fuel : Nat) → Rules
  | 0 => fun _ _ => failure
  | fuel + 1 => rule ex (parse ex fuel)

end Pattern

end Sideload.Surface
