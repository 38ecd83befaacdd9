import Sideload.Path
import Sideload.Time.Moment

/-!
What is remembered of an installed module.
-/

namespace Sideload

/-- How a module was placed into its package directory: its files were copied, or a redirect file points
to the live source. -/
inductive Mode where
  | copy
  | editable
  deriving DecidableEq, Inhabited

namespace Mode

def ofDevFlag (dev : Bool) : Mode := if dev then editable else copy

/-- The spelling in registry lines. -/
def keyword : Mode → String
  | copy => "copy"
  | editable => "dev"

/-- The spelling for people and in records. -/
def label : Mode → String
  | copy => "copy"
  | editable => "editable"

/-- Reads either spelling. -/
def ofText? (s : String) : Option Mode :=
  if s = "copy" then some copy
  else if s = "dev" ∨ s = "editable" then some editable
  else none

/-- Reads the spelling of records. -/
def ofLabel? (s : String) : Option Mode :=
  if s = "copy" then some copy else if s = "editable" then some editable else none

@[simp] theorem ofText?_keyword (m : Mode) : ofText? m.keyword = some m := by cases m <;> rfl

@[simp] theorem ofLabel?_label (m : Mode) : ofLabel? m.label = some m := by cases m <;> rfl

end Mode

/-- An installed module. -/
structure Entry where
  name : String
  /-- Where it came from. -/
  source : Path
  mode : Mode
  /-- The copied file or tree, or the redirect file. -/
  artifact : Path
  installedAt : Moment
  deriving DecidableEq, Inhabited

namespace Entry

/-- The package directory that the module was installed into. -/
def targetDir? (e : Entry) : Option Path := e.artifact.parent?

end Entry

end Sideload
