import Sideload.Registry.Entry

/-!
The names of artifacts in a package directory.
-/

namespace Sideload

/-- The file that makes a directory a package. -/
def packageMarker : String := "__init__.py"

/-- What the names of redirect files begin with. -/
def redirectStem : String := "nopkg_"

/-- The extension of redirect files. -/
def redirectExtension : String := "pth"

/-- The extension of a module file whose source has none. -/
def moduleExtension : String := "py"

/-- Where a module comes to lie: a redirect file if it is editable, else a directory or file of its
name. A file keeps its extension. -/
def destination (target source : Path) (name : String) (mode : Mode) (isDir : Bool) : Path :=
  match mode with
  | .editable => target.child s!"{redirectStem}{name}.{redirectExtension}"
  | .copy =>
    if isDir then target.child name
    else
      let ext := (source.extension?.bind Glyph.text?).getD moduleExtension
      target.child s!"{name}.{ext}"

/-- Where an artifact is built before it is moved to its destination. -/
def stagingPath (target : Path) (name : String) : Path :=
  target.child s!".{redirectStem}{name}.partial"

/-- Where anything that is not the artifact of the module stands in its way. A redirected module is also
hidden by a plain module of its name. -/
def candidates (target dest : Path) (name : String) : Mode → List Path
  | .copy => [dest]
  | .editable => [dest, target.child name, target.child s!"{name}.{moduleExtension}"]

end Sideload
