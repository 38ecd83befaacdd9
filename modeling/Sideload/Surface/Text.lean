import Sideload.Surface.Basic
import Sideload.Surface.Statement

/-!
The surface of a module's text.
-/

namespace Sideload.Surface

/-- How deep the rules of expressions can be within each other in a text of some length: a character
opens a handful of rules at most. -/
def depth (length : Nat) : Nat := 16 * (length + 2)

/-- The statements of a text, or nothing if it is no module. -/
def statements? (text : String) : Option (List Statement) :=
  let cs := text.toList
  let input : Input := { rest := cs }
  ((Statement.all (Expression.parse (depth cs.length))).run input).map (·.1)

/-- The surface of a text, or nothing if it is no module. -/
def ofText? (text : String) : Option Surface := (statements? text).map ofStatements

end Sideload.Surface
