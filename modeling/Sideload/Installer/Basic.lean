import Sideload.Disk.Copy
import Sideload.Installer.Destination
import Sideload.Installer.Name

/-!
Placing modules into a package directory.

An install is planned first, without a change of the disk. Then the artifact is built beside its
destination. Last it is settled: the artifact of the entry that is replaced goes, and the new one is moved
into place. So an install that fails while planning or building leaves the old artifact as it was. Nothing
here touches the registry.
-/

namespace Sideload

open Log (Level Topic)

/-- The first candidate path that is taken by something else than the artifact of `prior`. -/
def conflict? (d : Disk) (paths : List Path) (prior : Option Entry) : Option Path :=
  paths.find? fun p => d.occupied p && !prior.any (·.artifact.sameAs p)

/-- Builds the artifact of a source at `staging`. -/
def stage (source staging : Path) (mode : Mode) (isDir : Bool) : Work Failure Unit := do
  match mode, isDir with
  | .copy, true =>
    let copied ← (copyTree source staging).orFail (.ofIo staging)
    let marker := staging.child packageMarker
    match (← Work.disk).exists_ marker with
    | true => pure ()
    | false =>
      (Work.change (·.write marker .empty)).orFail (.ofIo marker)
      Work.log .debug .installer s!"Created {marker.quoted}"
    Work.log .debug .installer s!"Copied {copied} files from {source.quoted} to {staging.quoted}"
  | .copy, false =>
    (Work.change (·.copyFile source staging)).orFail (.ofIo staging)
    Work.log .debug .installer s!"Copied {source.quoted} to {staging.quoted}"
  | .editable, _ =>
    let some parent := source.parent? | throw (.invalidName source.display (.name .noParent))
    (Work.change (·.writeText staging s!"{parent.display}\n")).orFail (.ofIo staging)
    Work.log .debug .installer s!"Wrote redirect {staging.quoted} -> {parent.quoted}"

/-- Builds the artifact, and takes it away again if that fails. -/
def stageOrClean (source staging : Path) (mode : Mode) (isDir : Bool) : Work Failure Unit := do
  match ← (stage source staging mode isDir).attempt with
  | .ok () => return
  | .error failure =>
    match ← (Work.onDisk (DiskM.removeArtifact staging)).attempt with
    | .ok _ => pure ()
    | .error e =>
      Work.log .warn .installer s!"Failed to remove staging path {staging.quoted}: {e.message}"
    throw failure

/-- What an install is going to do. -/
structure Plan where
  name : String
  /-- The name that the source has by itself. -/
  derived : String
  source : Path
  isDir : Bool
  mode : Mode
  target : Path
  dest : Path
  /-- The entry that has the name so far. -/
  prior : Option Entry

def Plan.staging (plan : Plan) : Path := stagingPath plan.target plan.name

/-- Plans an install on the disk as it is. The artifact of `prior` is going to be replaced; anything else
in the way is a conflict. -/
def planInstall (d : Disk) (target source : Path) (mode : Mode) (name? : Option String)
    (prior : Option Entry) : Except Failure Plan := do
  let source ← resolveSource d source
  let isDir := d.isDir source
  let derived ← deriveName d source
  let name := name?.getD derived
  validateName name
  let dest := destination target source name mode isDir
  if let some taken := conflict? d (candidates target dest name mode) prior then
    throw (.conflict name taken)
  return ⟨name, derived, source, isDir, mode, target, dest, prior⟩

/-- Makes the package directory and builds the artifact beside its destination. -/
def build (plan : Plan) : Work Failure Unit := do
  (Work.onDisk (DiskM.createDirAll plan.target)).orFail (.ofIo plan.target)
  let _ ← (Work.onDisk (DiskM.removeArtifact plan.staging)).orFail (.ofIo plan.staging)
  stageOrClean plan.source plan.staging plan.mode plan.isDir

/-- Removes the artifact that is replaced. -/
def discardPrior (plan : Plan) : Work Failure Unit :=
  match plan.prior with
  | none => pure ()
  | some old => do
    let removed ← (Work.onDisk (DiskM.removeArtifact old.artifact)).orFail (.ofIo old.artifact)
    if removed then
      Work.log .debug .installer
        s!"Removed previous install of '{plan.name}' at {old.artifact.quoted}"

/-- A redirect lets the module be imported by the name of its source only. -/
def warnOtherName (plan : Plan) : Work Failure Unit :=
  if plan.mode = .editable ∧ plan.name ≠ plan.derived then
    Work.log .warn .installer
      s!"Editable install of {plan.source.quoted} is importable as '{plan.derived}', not '{plan.name}'"
  else pure ()

/-- Moves the artifact that was built to its destination, in place of the one that is replaced. -/
def settle (plan : Plan) : Work Failure Entry := do
  discardPrior plan
  (Work.change (·.rename plan.staging plan.dest)).orFail (.ofIo plan.dest)
  warnOtherName plan
  Work.log .info .installer s!"Installed '{plan.name}' ({plan.mode.label}) at {plan.dest.quoted}"
  return ⟨plan.name, plan.source, plan.mode, plan.dest, ← Work.now⟩

/-- Plans an install on the present disk and builds its artifact. -/
def prepare (target source : Path) (mode : Mode) (name? : Option String) (prior : Option Entry) :
    Work Failure Plan := do
  let plan ← Work.ofExcept (planInstall (← Work.disk) target source mode name? prior)
  build plan
  return plan

/-- Installs a source into the package directory `target`. -/
def installInto (target source : Path) (mode : Mode) (name? : Option String) (prior : Option Entry) :
    Work Failure Entry := do
  settle (← prepare target source mode name? prior)

end Sideload
