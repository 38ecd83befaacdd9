import Sideload.Surface.Syntax

/-!
The public surface of a module.

It holds the functions, the classes with their methods, and the constants that the module itself defines
under names that do not begin with an underscore, each in the order of the text.
-/

namespace Sideload

namespace Surface

/-- A parameter that can be passed by position. -/
structure Parameter where
  name : String
  hasDefault : Bool
  deriving DecidableEq, Inhabited

namespace Parameter

/-- The parameter for people. -/
def text (p : Parameter) : String := if p.hasDefault then s!"{p.name}=..." else p.name

end Parameter

/-- A function or a method. -/
structure Function where
  name : String
  params : List Parameter
  deriving DecidableEq, Inhabited

/-- A class and its methods. -/
structure Class where
  name : String
  methods : List Function
  deriving DecidableEq, Inhabited

end Surface

/-- What a module offers. -/
structure Surface where
  functions : List Surface.Function := []
  classes : List Surface.Class := []
  constants : List String := []
  deriving DecidableEq, Inhabited

namespace Surface

def isEmpty (s : Surface) : Bool := s.functions.isEmpty && s.classes.isEmpty && s.constants.isEmpty

/-! ### Reading a surface off the syntax -/

/-- Whether a name is for use from outside. -/
def isPublic (name : String) : Bool := !name.isEmpty && name.toList.head? != some '_'

/-- The parameter of a method that stands for its object. -/
def receiver : String := "self"

/-- What an item of a parameter list means for the parameters passed by position. -/
inductive Reading where
  | take (p : Parameter)
  | pass
  /-- No later one is passed by position. -/
  | stop

namespace Param

def reading : Param → Reading
  | name n => .take ⟨n.text, false⟩
  | annotated (.name n) => .take ⟨n.text, false⟩
  | annotated .rest => .stop
  | annotated .keywords => .pass
  | defaulted n => .take ⟨n.text, true⟩
  | annotatedDefaulted n => .take ⟨n.text, true⟩
  | bracketed text true => .take ⟨text, true⟩
  | bracketed _ false => .pass
  | star => .stop
  | rest => .stop
  | keywords => .pass
  | slash => .pass
  | comment => .pass

end Param

/-- The parameters that can be passed by position: those before the first star, without the receiver. -/
def positional : List Param → List Parameter
  | [] => []
  | p :: ps => match p.reading with
    | .take a => if a.name = receiver then positional ps else a :: positional ps
    | .pass => positional ps
    | .stop => []

namespace Statement

/-- The function or class that a statement defines, with its decorators left out. -/
def definition? : Statement → Option Definition
  | definition d => some d
  | decorated _ d => some d
  | _ => none

/-- The name that a statement binds to a literal, if it is public. -/
def constant? : Statement → Option String
  | assignment (.name n) _ (some value) =>
    if value.isLiteral && n.text.toList.head? != some '_' then some n.text else none
  | _ => none

/-- The public function that a statement defines. -/
def function? (s : Statement) : Option Function :=
  match s.definition? with
  | some (.function _ name params _) =>
    if isPublic name.text then some ⟨name.text, positional params⟩ else none
  | _ => none

end Statement

/-- The public functions that a block defines. -/
def methods : List Statement → List Function
  | [] => []
  | s :: ss => match s.function? with
    | some f => f :: methods ss
    | none => methods ss

/-- The public class that a statement defines. -/
def Statement.class? (s : Statement) : Option Class :=
  match s.definition? with
  | some (.classDef name body) =>
    if isPublic name.text then some ⟨name.text, methods body⟩ else none
  | _ => none

/-- The surface of the statements of a module. -/
def ofStatements : List Statement → Surface
  | [] => {}
  | s :: ss =>
    let rest := ofStatements ss
    match s.function?, s.class?, s.constant? with
    | some f, _, _ => { rest with functions := f :: rest.functions }
    | none, some c, _ => { rest with classes := c :: rest.classes }
    | none, none, some n => { rest with constants := n :: rest.constants }
    | none, none, none => rest

end Surface

end Sideload
