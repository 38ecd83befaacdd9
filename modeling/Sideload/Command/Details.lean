import Sideload.Disk.Lookup
import Sideload.Registry.Entry

/-!
What is shown of one installed module.
-/

namespace Sideload

/-- How an installed module is doing. -/
inductive Status where
  | sourceMissing
  | notInstalled
  | fine
  deriving DecidableEq

namespace Status

def text : Status → String
  | sourceMissing => "SOURCE MISSING"
  | notInstalled => "NOT INSTALLED (files missing)"
  | fine => "OK"

end Status

namespace Entry

/-- A missing source counts before a missing artifact. -/
def status (d : Disk) (e : Entry) : Status :=
  if !d.exists_ e.source then .sourceMissing
  else if !d.occupied e.artifact then .notInstalled
  else .fine

/-- What the artifact of a mode is called. -/
def artifactTitle : Mode → String
  | .copy => "Installed at"
  | .editable => "Redirect file"

/-- The lines about an entry. -/
def details (d : Disk) (e : Entry) : String :=
  let installed := String.ofList e.installedAt.tableText
  s!"Module: {e.name}\nSource: {e.source.display}\nMode: {e.mode.label}\n" ++
    s!"{artifactTitle e.mode}: {e.artifact.display}\n" ++
    s!"Installed: {installed}\nStatus: {(e.status d).text}\n"

end Entry

end Sideload
