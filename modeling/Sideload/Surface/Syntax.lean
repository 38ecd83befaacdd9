import Sideload.Text.Identifier

/-!
The syntax of modules, as far as their public surface depends on it.

Definitions, parameters and assignments are kept in full, and comments wherever they may stand between
them. Of an expression only its kind is kept: whether it is a literal, and whether it can be assigned to.
-/

namespace Sideload.Surface

/-- A name in the text of a module. -/
structure Ident where
  text : String
  spelled : spellsIdentifier text.toList = true
  deriving DecidableEq

/-- A text as a name, if it is one. -/
def Ident.ofText? (text : String) : Option Ident :=
  if h : spellsIdentifier text.toList = true then some ⟨text, h⟩ else none

/-- The kind of an expression. -/
inductive Expr where
  | name (n : Ident)
  /-- An attribute or an element: something that can be assigned to but is no plain name. -/
  | place
  /-- A name or place after a star. -/
  | unpacking
  /-- Several things that can be assigned to, or one in brackets. -/
  | group
  | string
  | integer
  | float
  | true_
  | false_
  | none_
  /-- An assignment whose value is assigned once more. -/
  | assignment
  | other
  deriving DecidableEq, Inhabited

namespace Expr

/-- Whether an expression can stand before an assignment sign. -/
def isTarget : Expr → Bool
  | name _ | place | unpacking | group => true
  | _ => false

/-- Whether an expression can be unpacked into. -/
def isUnpackable : Expr → Bool
  | name _ | place => true
  | _ => false

/-- Whether an expression is a string, a number, `True`, `False` or `None`. -/
def isLiteral : Expr → Bool
  | string | integer | float | true_ | false_ | none_ => true
  | _ => false

end Expr

/-- What an annotation in a parameter list belongs to: a name, or a name after one star or two. -/
inductive Receiver where
  | name (n : Ident)
  | rest
  | keywords
  deriving DecidableEq

/-- An item of a parameter list. -/
inductive Param where
  | name (n : Ident)
  | annotated (on : Receiver)
  | defaulted (n : Ident)
  | annotatedDefaulted (n : Ident)
  /-- A list of names in brackets, as it is written. -/
  | bracketed (text : String) (hasDefault : Bool)
  /-- A star alone: what follows is passed by keyword. -/
  | star
  /-- A star and a name. -/
  | rest
  /-- Two stars and a name. -/
  | keywords
  /-- A slash: what comes before it is passed by position. -/
  | slash
  | comment
  deriving DecidableEq

mutual

/-- A function or a class. -/
inductive Definition where
  | function (isAsync : Bool) (name : Ident) (params : List Param) (body : List Statement)
  | classDef (name : Ident) (body : List Statement)

/-- A statement. -/
inductive Statement where
  | definition (d : Definition)
  | decorated (decorators : List Expr) (d : Definition)
  /-- An assignment; without a value it is an annotation only. -/
  | assignment (target : Expr) (annotated : Bool) (value : Option Expr)
  /-- Any other statement without blocks. -/
  | simple
  /-- Any other statement with blocks. -/
  | compound (blocks : List (List Statement))
  | comment

end

end Sideload.Surface
