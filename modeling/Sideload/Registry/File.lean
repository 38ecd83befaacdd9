import Sideload.Failure
import Sideload.Registry.Basic
import Sideload.World

/-!
The registry file.

The file has one line for each entry. Blank lines and lines that begin with `#` are passed over, and of
two lines with one name the later counts. Writing puts a comment line first and replaces the file in one
step: the text is written beside it and then moved over it.
-/

namespace Sideload

namespace Registry

/-- The first line of a written file. -/
def header : String := "# nopkg registry: name|source|mode|install_path|installed_at"

/-- What the name of the file written beside the registry ends with. -/
def draftExtension : String := "txt.tmp"

/-! ### Text -/

/-- Text cut into lines; carriage returns at the end of a line do not belong to it. -/
def lines (s : String) : List String :=
  (splitAt '\n' s.toList).map fun l =>
    String.ofList (l.reverse.dropWhile (· = '\r')).reverse

/-- Whether a line is passed over. -/
def isSkipped (line : String) : Bool :=
  (trim line.toList).isEmpty || line.toList.head? == some '#'

/-- The lines that count, each with its number from 1. -/
def numberedLines (s : String) : List (Nat × String) :=
  ((lines s).zipIdx.map fun (l, i) => (i + 1, l)).filter fun (_, l) => !isSkipped l

/-- The entries up to the first line that is none, and that line with what is wrong with it. -/
def readLines : List (Nat × String) → List Entry × Option (Nat × LineError)
  | [] => ([], none)
  | (n, l) :: rest => match Entry.ofLine l with
    | .error e => ([], some (n, e))
    | .ok e =>
      let (es, fault?) := readLines rest
      (e :: es, fault?)

/-- The registry of a text, or the first line that is no entry. -/
def ofText (s : String) : Except (Nat × LineError) Registry :=
  match readLines (numberedLines s) with
  | (es, none) => .ok (ofList es)
  | (_, some fault) => .error fault

/-- The names that are given once more, in the order in which they are. -/
def repeatedNames : Registry → List Entry → List String
  | _, [] => []
  | r, e :: es => (if r.contains e.name then [e.name] else []) ++ repeatedNames (r.insert e) es

/-- The lines of entries, or the first entry that has none. -/
def writeLines : List Entry → Except (String × LineFault) (List String)
  | [] => .ok []
  | e :: es => do
    let l ← e.toLine.mapError fun f => (e.name, f)
    .ok (l :: (← writeLines es))

/-- The text of a registry: every line ends in a line feed. -/
def text (r : Registry) : Except (String × LineFault) String := do
  let ls ← writeLines r.entries
  .ok (String.join ((header :: ls).map (· ++ "\n")))

/-! ### The file -/

open Log (Level Topic)

variable {ε : Type}

/-- Puts an entry under its name and logs if there was one. -/
def upsert (r : Registry) (e : Entry) : Work ε Registry := do
  if r.contains e.name then
    Work.log .debug .registry s!"Replaced registry entry '{e.name}'"
  return r.insert e

/-- Reads the registry at a path. No file is an empty registry. -/
def load (path : Path) : Work Failure Registry := do
  match (← Work.disk).readText path with
  | .error e =>
    if e.isMissing then
      Work.log .debug .registry s!"No registry at {path.quoted}, starting empty"
      return empty
    throw (.ofIo path e)
  | .ok content =>
    let (es, fault?) := readLines (numberedLines content)
    for name in repeatedNames empty es do
      Work.log .debug .registry s!"Replaced registry entry '{name}'"
    match fault? with
    | some (n, e) => throw (.corrupt path n (.line e))
    | none =>
      let r := ofList es
      Work.log .debug .registry s!"Loaded {r.size} registry entries from {path.quoted}"
      return r

/-- The path that the text is written to before it replaces the registry. -/
def draftPath (path : Path) : Path := path.withExtension draftExtension

/-- Makes the directory that holds a path. -/
def makeHost (path : Path) : Work Failure Unit :=
  match path.parent? with
  | some parent => (Work.onDisk (DiskM.createDirAll parent)).orFail (.ofIo parent)
  | none => pure ()

/-- Writes text beside a file and moves it over the file. -/
def replaceText (path : Path) (content : String) : Work Failure Unit := do
  let draft := draftPath path
  (Work.change (·.writeText draft content)).orFail (.ofIo draft)
  (Work.change (·.rename draft path)).orFail (.ofIo path)

/-- Writes the registry to a path. -/
def save (path : Path) (r : Registry) : Work Failure Unit := do
  match r.text with
  | .error (name, fault) => throw (.invalidEntry name (.field fault))
  | .ok content =>
    makeHost path
    replaceText path content
    Work.log .info .registry s!"Saved {r.size} registry entries to {path.quoted}"

end Registry

end Sideload
