import Sideload.Command.Basic
import Sideload.Command.Details
import Sideload.Command.Listing
import Sideload.Interpreter
import Sideload.Json.Printer
import Sideload.Registry.Record
import Sideload.Shelf
import Sideload.Surface.File
import Sideload.Surface.Hint

/-!
Carrying out commands.

Each command gives the text that it prints. A command that fails prints nothing.
-/

namespace Sideload

namespace Command

/-- A value as JSON on lines of its own. An entry whose paths are no text has no JSON form. -/
def jsonText : Option Data → String
  | some d => Json.text d ++ "\n"
  | none => ""

/-- A line of the hints: what begins with a number sign is a heading. -/
def hintLine (line : String) : String :=
  if line.toList.head? == some '#' then s!"\n{line}\n" else s!"  {line}\n"

/-- The hints for a module that offers something. -/
def hintsText (module_ : String) (s : Surface) : String :=
  if s.isEmpty then "" else "\nUsage:\n" ++ String.join ((s.hints module_).map hintLine)

/-- The hints for an entry. Only files have them, and only if they are wanted. -/
def usage (wanted : Bool) (e : Entry) : Work Failure String := do
  if wanted && (← Work.disk).isFile e.source then
    return hintsText e.name (← Surface.ofFile e.source)
  return ""

/-- Installs a source into the package directory of the configuration. -/
def runInstall (shelf : Shelf) (env : Environment) (config : InstallConfig) (source : Path) (mode : Mode)
    (name? : Option String) : Work Failure String := do
  let target ← resolveTargetDir env config
  let e ← shelf.install target source mode name?
  let hints ← usage config.showUsage e
  return s!"Successfully installed module '{e.name}' ({e.mode.label})\n  -> {e.artifact.display}\n" ++ hints

def runList (shelf : Shelf) (json : Bool) : Work Failure String := do
  let es ← shelf.list
  let d ← Work.disk
  return if json then jsonText (Entry.listToData? es) else Listing.text d es

def runInfo (shelf : Shelf) (name : String) (json : Bool) : Work Failure String := do
  let e ← shelf.info name
  let d ← Work.disk
  return if json then jsonText e.toData? else e.details d

def runUpdate (shelf : Shelf) (name : String) : Work Failure String := do
  let e ← shelf.update name
  return s!"Successfully updated module '{e.name}'\n  from {e.source.display}\n"

def runUninstall (shelf : Shelf) (name : String) : Work Failure String := do
  let r ← shelf.uninstall name
  let note :=
    if r.artifactRemoved then ""
    else s!"Note: {r.entry.artifact.display} was already gone; removed the registry entry only.\n"
  return s!"Successfully uninstalled module '{r.entry.name}'\n" ++ note

/-- Carries out a command and gives what it prints. -/
def run (shelf : Shelf) (env : Environment) (config : InstallConfig) : Command → Work Failure String
  | install source mode name? => runInstall shelf env config source mode name?
  | list json => runList shelf json
  | info name json => runInfo shelf name json
  | update name => runUpdate shelf name
  | uninstall name => runUninstall shelf name

end Command

end Sideload
