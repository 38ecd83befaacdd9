import Sideload.Installer.Basic
import Sideload.Registry.File

/-!
Installed modules as a whole: package directories together with the registry that describes them.

Every operation reads the registry, works on the disk, and writes the registry back in one piece.
-/

namespace Sideload

/-- What is left to say after an uninstall. -/
structure Removal where
  entry : Entry
  /-- False if the artifact was gone already. -/
  artifactRemoved : Bool
  deriving DecidableEq

/-- The place where the registry is kept. -/
structure Shelf where
  registryPath : Path

namespace Shelf

def registryName : String := "registry.txt"

/-- The shelf whose registry is among the program's own files. -/
def ofHome (home : Path) : Shelf := ⟨home.child registryName⟩

open Log (Level Topic)

/-- The entry of a name. -/
def require (r : Registry) (name : String) : Work Failure Entry :=
  match r.get? name with
  | some e => return e
  | none => throw (.notFound name)

/-- Reads the registry and builds the artifact of a source that is to be installed. -/
def prepareInstall (shelf : Shelf) (target source : Path) (mode : Mode) (name? : Option String) :
    Work Failure (Registry × Plan) := do
  let r ← Registry.load shelf.registryPath
  let d ← Work.disk
  let source ← Work.ofExcept (resolveSource d source)
  let name ← match name? with
    | some name => pure name
    | none => Work.ofExcept (deriveName d source)
  return (r, ← prepare target source mode (some name) (r.get? name))

/-- Reads the registry and builds the artifact of an installed module once more. -/
def prepareUpdate (shelf : Shelf) (name : String) : Work Failure (Registry × Plan) := do
  let r ← Registry.load shelf.registryPath
  let current ← require r name
  if !(← Work.disk).exists_ current.source then throw (.sourceNotFound current.source)
  let some target := current.targetDir?
    | throw (.invalidEntry name (.noTargetDir current.artifact))
  return (r, ← prepare target current.source current.mode (some current.name) (some current))

/-- Moves the artifact that was built into its place and remembers it. -/
def commit (shelf : Shelf) (r : Registry) (plan : Plan) : Work Failure Entry := do
  let entry ← settle plan
  let r ← r.upsert entry
  r.save shelf.registryPath
  return entry

/-- Installs a source and remembers it. An entry of the same name is replaced. -/
def install (shelf : Shelf) (target source : Path) (mode : Mode) (name? : Option String) :
    Work Failure Entry := do
  let (r, plan) ← shelf.prepareInstall target source mode name?
  shelf.commit r plan

/-- All entries in name order. -/
def list (shelf : Shelf) : Work Failure (List Entry) := do
  return (← Registry.load shelf.registryPath).entries

/-- The entry of a name. -/
def info (shelf : Shelf) (name : String) : Work Failure Entry := do
  require (← Registry.load shelf.registryPath) name

/-- Installs a module again from its recorded source, in the same mode and package directory. -/
def update (shelf : Shelf) (name : String) : Work Failure Entry := do
  let (r, plan) ← shelf.prepareUpdate name
  let entry ← shelf.commit r plan
  Work.log .info .shelf s!"Updated '{name}' from {entry.source.quoted}"
  return entry

/-- Removes the artifact of a module and forgets its entry. The entry goes even if the artifact cannot be
removed. -/
def uninstall (shelf : Shelf) (name : String) : Work Failure Removal := do
  let r ← Registry.load shelf.registryPath
  let entry ← require r name
  let removal ← (Work.onDisk (DiskM.removeArtifact entry.artifact)).attempt
  (r.erase name).save shelf.registryPath
  match removal with
  | .ok removed =>
    if removed then
      Work.log .info .shelf s!"Uninstalled '{name}' from {entry.artifact.quoted}"
    else
      Work.log .warn .shelf s!"'{name}' was already missing at {entry.artifact.quoted}"
    return ⟨entry, removed⟩
  | .error e =>
    Work.log .warn .shelf s!"Failed to delete {entry.artifact.quoted}: {e.message}"
    throw (.cleanup entry.name entry.artifact (.file e))

end Shelf

end Sideload
