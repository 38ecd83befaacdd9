import Sideload.Surface.Basic
import Sideload.Text.Blank

/-!
Hints: lines that import a module and call what it offers.
-/

namespace Sideload

namespace Surface

/-- How many functions and classes are imported by name. -/
def importedFunctions : Nat := 3

def importedClasses : Nat := 2

/-- How many functions are called, and with how many arguments at most. -/
def calledFunctions : Nat := 2

def suggestedArguments : Nat := 2

/-- The line between imports and calls. -/
def callsHeader : String := "# Usage examples:"

def hasWord (word s : String) : Bool := hasPart word.toList s.toList

/-- A value that fits the name of a parameter. -/
def suggestion (name : String) : String :=
  let lower := lowerAscii name
  if hasWord "name" lower then "\"World\""
  else if hasWord "text" lower || hasWord "string" lower || hasWord "word" lower then "\"hello world\""
  else if hasWord "radius" lower || hasWord "num" lower || lower = "n" then "5"
  else if lower = "a" || lower = "b" then "10"
  else "42"

def commaList (items : List String) : String := ", ".intercalate items

def importLine (module_ : String) (names : List String) : List String :=
  if names.isEmpty then [] else [s!"from {module_} import {commaList names}"]

def functionCall (module_ : String) (f : Function) : String :=
  let args := (f.params.take suggestedArguments).map fun p => suggestion p.name
  s!"{module_}.{f.name}({commaList args})"

def methodCall (m : Function) : String :=
  let args := (m.params.take suggestedArguments).map fun _ => "42"
  s!"obj.{m.name}({commaList args})"

def classCalls (module_ : String) (c : Class) : List String :=
  s!"obj = {module_}.{c.name}()" :: (c.methods.take 1).map methodCall

/-- The lines that call the first functions, and the first class with its first method. -/
def calls (module_ : String) (s : Surface) : List String :=
  (s.functions.take calledFunctions).map (functionCall module_) ++
    (s.classes.take 1).flatMap (classCalls module_)

/-- All lines for a module. -/
def hints (module_ : String) (s : Surface) : List String :=
  let cs := calls module_ s
  s!"import {module_}" ::
    importLine module_ ((s.functions.take importedFunctions).map (·.name)) ++
    importLine module_ ((s.classes.take importedClasses).map (·.name)) ++
    (if cs.isEmpty then [] else callsHeader :: cs)

end Surface

end Sideload
