import Sideload.Installer.Destination
import Sideload.Surface.Text
import Sideload.Text.Quoted
import Sideload.World

/-!
The surface of a file.

A file that is no module, cannot be read or has a syntax error offers nothing; that is no failure, but it
is logged.
-/

namespace Sideload.Surface

variable {ε : Type}

/-- Logs why a file is taken to offer nothing. -/
def skipped (p : Path) (why : String) : Work ε Surface := do
  Work.log .debug .analysis s!"Skipping analysis of {p.quoted}: {why}"
  return {}

/-- The surface of a file. -/
def ofFile (p : Path) : Work ε Surface := do
  if p.extension? ≠ some (Glyph.ofString moduleExtension) then return {}
  match (← Work.disk).readText p with
  | .error e => skipped p e.message
  | .ok text => match ofText? text with
    | some s => return s
    | none => skipped p "syntax error"

end Sideload.Surface
