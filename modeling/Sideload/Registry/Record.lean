import Sideload.Data.Value
import Sideload.Registry.Line

/-!
Entries as records of a data format.

The mode is written with its label, and the time in the form of the registry but with years of any
length.
-/

namespace Sideload

/-- Reads a mode: its label, or a record with the label as its only member and nothing under it. -/
def Mode.ofData? : Data → Option Mode
  | .string s => ofLabel? s
  | .record [(s, .null)] => ofLabel? s
  | _ => none

namespace Entry

/-- The names of the fields in the order they are written. -/
def fieldNames : List String := ["name", "source_path", "mode", "install_path", "installed_at"]

/-- The record of an entry, if its paths are text. -/
def toData? (e : Entry) : Option Data := do
  let source ← e.source.text?
  let artifact ← e.artifact.text?
  some (.record (fieldNames.zip
    [.string e.name, .string source, .string e.mode.label, .string artifact,
      .string (String.ofList e.installedAt.text)]))

/-- The entry of a record; every field has to be there. -/
def ofData? (d : Data) : Option Entry := do
  match ← d.fields? fieldNames false with
  | [some name, some source, some mode, some artifact, some time] =>
    let time ← time.string?
    some
      { name := ← name.string?
        source := Path.ofString (← source.string?)
        mode := ← Mode.ofData? mode
        artifact := Path.ofString (← artifact.string?)
        installedAt := ← (Moment.readRelaxed time).toOption }
  | _ => none

/-- The record of several entries. -/
def listToData? (es : List Entry) : Option Data := (es.mapM toData?).map .list

end Entry

end Sideload
