import Sideload.Text.Quoted
import Sideload.World

/-!
Copying trees.

A tree is copied with its links resolved: where a link leads to a file or a directory, the copy has a
file or a directory. A link that leads nowhere, or to a directory above it, stops the copy; what was
copied before stays. When the copy goes into the tree itself, the directory that holds it is left out.
-/

namespace Sideload

namespace Disk

/-- What is in a directory. -/
def list (d : Disk) (p : Path) : Except IoError (List (Name × Node)) := do
  match ← d.stat p with
  | .dir es => .ok es
  | _ => .error (.os .notDirectory)

/-- Where a path leads, links followed. -/
def locate (d : Disk) (p : Path) : Except IoError Location := do
  match ← d.find p true with
  | .present c => .ok c.location
  | .vacant .. => .error (.os .noEntry)

end Disk

/-- A directory on the way from the top of a walk: its path and where it is. -/
structure Ancestor where
  path : Path
  location : Location

/-- Whether a walk finds a directory to go into at the path of a node. A link is followed; one that leads
to a directory the walk is in fails. -/
def classify (d : Disk) (above : List Ancestor) (p : Path) (n : Node) : Except IoError Bool := do
  if n.isLink then
    let target ← (d.stat p).mapError (.walking p)
    if target.isDir then
      let loc ← (d.locate p).mapError (.walking p)
      match above.find? (·.location = loc) with
      | some a => .error (.loop p a.path)
      | none => .ok true
    else .ok false
  else .ok n.isDir

/-- Copies what is in the directory `dir` into `target` and counts the files. Everything whose path is
`dst` or the parent of `dst` is left out. `depth` bounds the directories below `dir`; no path has more
than `Disk.maxPath` bytes, so no walk goes deeper than that. -/
def copyEntries (dst : Path) : (depth : Nat) → List Ancestor → (dir target : Path) → Work IoError Nat
  | 0, _, dir, _ => throw (.walking dir (.os .nameTooLong))
  | depth + 1, above, dir, target => do
    let here ← Work.ask fun d => (d.locate dir).mapError (.walking dir)
    let above := ⟨dir, here⟩ :: above
    let found ← Work.ask fun d => (d.list dir).mapError (.walking dir)
    found.foldlM (fun count (name, node) => do
      let path := dir.join (.ofName name)
      let isDir ← Work.ask fun d => classify d above path node
      let copy := target.join (.ofName name)
      match path.sameAs dst || dst.parent?.any path.sameAs, isDir with
      | true, _ => return count
      | false, true =>
        Work.onDisk (DiskM.createDirAll copy)
        return count + (← copyEntries dst depth above path copy)
      | false, false =>
        Work.log .trace .files s!"copy {path.quoted} -> {copy.quoted}"
        Work.change (·.copyFile path copy)
        return count + 1) 0

/-- Copies every file of the tree `src` into `dst`, which is made if it is missing, and answers how many
there were. -/
def copyTree (src dst : Path) : Work IoError Nat := do
  Work.onDisk (DiskM.createDirAll dst)
  let top ← Work.ask fun d => (d.lstat src).mapError (.walking src)
  let isDir ← Work.ask fun d => classify d [] src top
  if isDir then copyEntries dst Disk.maxPath [] src dst else return 0

end Sideload
