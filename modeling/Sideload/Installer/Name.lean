import Sideload.Failure
import Sideload.Disk.Lookup
import Sideload.Text.Letter

/-!
Sources and module names.
-/

namespace Sideload

/-- The absolute path of a source without links; module names are taken from it. -/
def resolveSource (d : Disk) (source : Path) : Except Failure Path :=
  if d.exists_ source then (d.canonical source).mapError (.ofIo source)
  else .error (.sourceNotFound source)

/-- The module name of a source: a directory's name, or a file's name without its extension. -/
def deriveName (d : Disk) (source : Path) : Except Failure String :=
  let raw := if d.isDir source then source.fileName? else source.stem?
  match raw.bind Glyph.text? with
  | some name => .ok name
  | none => .error (.invalidName source.display (.name .underivable))

/-- What keeps a name from being a module name, if anything: it starts with a letter or an underscore and
goes on with letters, digits and underscores. -/
def nameFault? : List Char → Option NameFault
  | [] => some .empty
  | c :: cs =>
    if !(isAlphabetic c || c = '_') then some .badStart
    else if cs.any fun c => !(isAlphanumeric c || c = '_') then some .badPart
    else none

def validateName (name : String) : Except Failure Unit :=
  match nameFault? name.toList with
  | none => .ok ()
  | some fault => .error (.invalidName name (.name fault))

end Sideload
