import Sideload.Disk.Lookup

/-!
Changing the disk.

The first part holds changes that happen whole or not at all; each maps a disk to a disk or to the reason
why nothing happened. The second part holds changes made of several such steps: what they did before they
fail stays done.
-/

namespace Sideload

namespace Disk

/-! ### Single changes -/

def put (d : Disk) (parent : Cursor) (name : Name) (n : Node) : Disk :=
  { d with root := d.root.insert parent.location name n }

def drop (d : Disk) (parent : Cursor) (name : Name) : Disk :=
  { d with root := d.root.remove parent.location name }

def makeDir (d : Disk) (p : Path) : Except IoError Disk := do
  let spot ← d.place p
  match spot.last with
  | .name n =>
    if (spot.parent.node.child? n).isSome then .error (.os .exists_)
    else .ok (d.put spot.parent n (.dir []))
  | _ => .error (.os .exists_)

def makeLink (d : Disk) (p target : Path) : Except IoError Disk := do
  if target.isEmpty then throw (.os .noEntry)
  let spot ← d.place p
  match spot.last with
  | .name n =>
    if (spot.parent.node.child? n).isSome then .error (.os .exists_)
    else if spot.slash then .error (.os .noEntry)
    else .ok (d.put spot.parent n (.link target))
  | _ => .error (.os .exists_)

/-- Sets the content of a file, which is made if it is missing. `change` gives the file from the one that
was there. -/
def openFile (d : Disk) (p : Path) (change : Option (ByteArray × Bool) → ByteArray × Bool) :
    Except IoError Disk := do
  if p.endsInSlash then
    let _ ← d.place p
    throw (.os .isDirectory)
  let file (old : Option (ByteArray × Bool)) : Node := .file (change old).1 (change old).2
  match ← d.find p true with
  | .vacant parent n => .ok (d.put parent n (file none))
  | .present c =>
    match c.node, c.above with
    | .file content x, (n, parent) :: rest => .ok (d.put ⟨parent, rest⟩ n (file (some (content, x))))
    | _, _ => .error (.os .isDirectory)

/-- Writes a whole file; one that is there keeps its mode. -/
def write (d : Disk) (p : Path) (content : ByteArray) : Except IoError Disk :=
  d.openFile p fun old => (content, (old.map (·.2)).getD false)

def writeText (d : Disk) (p : Path) (s : String) : Except IoError Disk := d.write p s.toUTF8

/-- Writes at the end of a file. -/
def append (d : Disk) (p : Path) (content : ByteArray) : Except IoError Disk :=
  d.openFile p fun old => ((old.map (·.1)).getD .empty ++ content, (old.map (·.2)).getD false)

def setExecutable (d : Disk) (p : Path) (x : Bool) : Except IoError Disk :=
  d.openFile p fun old => ((old.map (·.1)).getD .empty, x)

/-- Copies one file with its mode. The target is emptied before the source is read, so a file copied onto
itself ends up empty. -/
def copyFile (d : Disk) (src dst : Path) : Except IoError Disk := do
  match ← d.stat src with
  | .file _ x =>
    let emptied ← d.openFile dst fun _ => (.empty, x)
    let content ← emptied.readBytes src
    emptied.openFile dst fun _ => (content, x)
  | _ => .error .notRegular

def removeFile (d : Disk) (p : Path) : Except IoError Disk := do
  let spot ← d.place p
  match spot.last with
  | .name n =>
    match spot.parent.node.child? n with
    | none => .error (.os .noEntry)
    | some m =>
      if m.isDir then .error (.os .isDirectory)
      else if spot.slash then .error (.os .notDirectory)
      else .ok (d.drop spot.parent n)
  | _ => .error (.os .isDirectory)

/-- Removes an empty directory. -/
def removeDir (d : Disk) (p : Path) : Except IoError Disk := do
  let spot ← d.place p
  match spot.last with
  | .name n =>
    match spot.parent.node.child? n with
    | none => .error (.os .noEntry)
    | some (.dir []) => .ok (d.drop spot.parent n)
    | some (.dir _) => .error (.os .notEmpty)
    | some _ => .error (.os .notDirectory)
  | .root => .error (.os .busy)
  | .here => .error (.os .invalid)
  | .up => .error (.os .notEmpty)

/-- Whether `loc` lies at or below `other`. -/
def isWithin (loc other : Location) : Bool := other.isPrefixOf loc

/-- What keeps a node from taking the place of another one, if anything. A file may replace a file or a
link, a directory an empty directory. -/
def replaceFault? (node : Node) : Option Node → Option OsError
  | none => none
  | some (.dir []) => if node.isDir then none else some .isDirectory
  | some (.dir _) => if node.isDir then some .notEmpty else some .isDirectory
  | some _ => if node.isDir then some .notDirectory else none

/-- Moves a node to another name. -/
def rename (d : Disk) (src dst : Path) : Except IoError Disk := do
  let old ← d.place src
  let new ← d.place dst
  match old.last, new.last with
  | .name a, .name b =>
    let oldLoc := old.parent.location ++ [a]
    let newLoc := new.parent.location ++ [b]
    match old.parent.node.child? a with
    | none => .error (.os .noEntry)
    | some node =>
      if !node.isDir && (old.slash || new.slash) then .error (.os .notDirectory)
      else if oldLoc = newLoc then .ok d
      else if isWithin newLoc oldLoc then .error (.os .invalid)
      else if isWithin oldLoc newLoc then .error (.os .notEmpty)
      else match replaceFault? node (new.parent.node.child? b) with
        | some e => .error (.os e)
        | none => .ok ((d.drop old.parent a).put new.parent b node)
  | _, _ => .error (.os .busy)

end Disk

/-! ### Changes in several steps -/

/-- A change of the disk that may fail halfway. -/
abbrev DiskM := ExceptT IoError (StateM Disk)

namespace DiskM

/-- A single change as a step. -/
def step (change : Disk → Except IoError Disk) : DiskM Unit := do
  match change (← get) with
  | .ok d => set d
  | .error e => throw e

/-- A question as a step. -/
def ask {α : Type} (question : Disk → Except IoError α) : DiskM α := do
  match question (← get) with
  | .ok a => pure a
  | .error e => throw e

/-- Finds the nearest parent that is there, making the first that can be made; gives the paths still to
be made, the outermost first. -/
def reach : List Path → List Path → DiskM (List Path)
  | [], todo => pure todo
  | p :: above, todo => do
    if p.isEmpty then return todo
    let d ← get
    match d.makeDir p with
    | .ok d' => set d'; pure todo
    | .error e =>
      if e.isMissing then reach above (p :: todo)
      else if e.isExisting && d.isDir p then pure todo
      else throw e

/-- Makes the given directories in turn; those that are there already are left. -/
def makeEach : List Path → DiskM Unit
  | [] => pure ()
  | p :: rest => do
    let d ← get
    match d.makeDir p with
    | .ok d' => set d'
    | .error e => if e.isExisting && d.isDir p then pure () else throw e
    makeEach rest

/-- Makes a directory and every directory above it that is missing. -/
def createDirAll (p : Path) : DiskM Unit := do
  if p.isEmpty then return
  makeEach (← reach p.ancestors [])

/-- Removes a directory and everything in it; links in it are removed, not followed. -/
def removeTree (p : Path) : DiskM Unit := do
  let d ← get
  match d.find p false with
  | .error e => throw e
  | .ok (.vacant ..) => throw (.os .noEntry)
  | .ok (.present c) =>
    match c.node with
    | .link _ => step (·.removeFile p)
    | .file .. => throw (.os .notDirectory)
    | .dir _ =>
      set { d with root := d.root.update (fun _ => .dir []) c.location }
      step (·.removeDir p)

/-- Removes a file, a link or a whole tree. Answers whether there was anything. -/
def removeArtifact (p : Path) : DiskM Bool := do
  match (← get).lstat p with
  | .error e => if e.isMissing then pure false else throw e
  | .ok n =>
    if n.isDir then removeTree p else step (·.removeFile p)
    pure true

end DiskM

end Sideload
