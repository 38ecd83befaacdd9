import Sideload.Disk.Error
import Sideload.Disk.Tree

/-!
Finding what a path names.

A path is followed step by step from the top of the disk or from the working directory. Links met on the
way are replaced by their targets; a link at the end is replaced only on request. The walk keeps the
nodes above the present one, so that `..` leads back.
-/

namespace Sideload

/-- A tree of files, and the directory that relative paths start from. -/
structure Disk where
  root : Node
  cwd : Location
  deriving Inhabited

/-- One step of a path. -/
inductive Step where
  | here
  | up
  | name (n : Name)

namespace Step

def ofSegment (n : Name) : Step :=
  if n = Name.dot then here else if n = Name.dotDot then up else name n

end Step

namespace Path

/-- The steps of a path. A slash at the end asks for a directory, as a final `.` does. -/
def steps (p : Path) : List Step :=
  let names := (splitSlash p.glyphs).filter (· ≠ [])
  names.map Step.ofSegment ++ if p.endsInSlash then [.here] else []

def holdsNul (p : Path) : Bool := p.glyphs.contains (.char '\x00')

end Path

namespace Disk

/-- The longest name and the longest path, in bytes. -/
def maxName : Nat := 255

def maxPath : Nat := 4095

/-- How many links one walk follows. -/
def maxLinks : Nat := 40

/-- A node together with the directories above it and the names that lead down from them. -/
structure Cursor where
  node : Node
  above : List (Name × Node)

namespace Cursor

def location (c : Cursor) : Location := (c.above.map (·.1)).reverse

/-- One directory up; above the top is the top. -/
def up (c : Cursor) : Cursor :=
  match c.above with
  | [] => c
  | (_, parent) :: rest => ⟨parent, rest⟩

def down (c : Cursor) (name : Name) (child : Node) : Cursor := ⟨child, (name, c.node) :: c.above⟩

end Cursor

/-- Where a walk ends: at a node, or at a name that its directory does not have. -/
inductive Spot where
  | present (c : Cursor)
  | vacant (parent : Cursor) (name : Name)

/-- The cursor at a location. -/
def descend (c : Cursor) : Location → Option Cursor
  | [] => some c
  | name :: loc => match c.node.child? name with
    | none => none
    | some m => descend (c.down name m) loc

def top (d : Disk) : Cursor := ⟨d.root, []⟩

/-- Follows steps from a directory. `links` is how many more links may be followed; `follow` says whether
a link at the very end is. -/
def walk (top : Cursor) (follow : Bool) : (links : Nat) → Cursor → List Step → Except OsError Spot
  | _, c, [] => .ok (.present c)
  | links, c, .here :: rest => walk top follow links c rest
  | links, c, .up :: rest => walk top follow links c.up rest
  | links, c, .name n :: rest =>
    if n.byteSize > maxName then .error .nameTooLong
    else match c.node.child? n with
      | none => if rest.isEmpty then .ok (.vacant c n) else .error .noEntry
      | some (.link target) =>
        if rest.isEmpty && !follow then .ok (.present (c.down n (.link target)))
        else match links with
          | 0 => .error .tooManyLinks
          | links + 1 =>
            if target.isEmpty then .error .noEntry
            else walk top follow links (if target.isAbsolute then top else c) (target.steps ++ rest)
      | some (.dir es) => walk top follow links (c.down n (.dir es)) rest
      | some (.file content x) =>
        if rest.isEmpty then .ok (.present (c.down n (.file content x))) else .error .notDirectory
termination_by links _ steps => (links, steps.length)

/-- The directory a path starts from. -/
def start (d : Disk) (p : Path) : Except OsError Cursor :=
  match if p.isAbsolute then some d.top else descend d.top d.cwd with
  | some c => if c.node.isDir then .ok c else .error .notDirectory
  | none => .error .noEntry

/-- Refuses what never names anything. -/
def admit? (p : Path) : Except IoError Unit :=
  if p.holdsNul then .error .nulInPath
  else if p.isEmpty then .error (.os .noEntry)
  else if p.byteSize > maxPath then .error (.os .nameTooLong)
  else .ok ()

/-- Where a path leads. -/
def find (d : Disk) (p : Path) (follow : Bool) : Except IoError Spot := do
  admit? p
  let c ← (d.start p).mapError .os
  (walk d.top follow maxLinks c p.steps).mapError .os

/-- What the last segment of a path is. -/
inductive Last where
  | root
  | here
  | up
  | name (n : Name)

/-- The directory that holds the last segment of a path, that segment, and whether a slash follows it. -/
structure Place where
  parent : Cursor
  last : Last
  slash : Bool

/-- Where a path would be made: its directory is followed, its last segment is not. -/
def place (d : Disk) (p : Path) : Except IoError Place := do
  admit? p
  let names := (splitSlash p.glyphs).filter (· ≠ [])
  let c ← (d.start p).mapError .os
  match names.getLast? with
  | none => .ok ⟨d.top, .root, true⟩
  | some n =>
    let spot ← (walk d.top true maxLinks c (names.dropLast.map Step.ofSegment ++ [.here])).mapError .os
    match spot with
    | .vacant .. => .error (.os .noEntry)
    | .present parent =>
      if !parent.node.isDir then .error (.os .notDirectory)
      else if n = Name.dot then .ok ⟨parent, .here, p.endsInSlash⟩
      else if n = Name.dotDot then .ok ⟨parent, .up, p.endsInSlash⟩
      else if Name.byteSize n > maxName then .error (.os .nameTooLong)
      else .ok ⟨parent, .name n, p.endsInSlash⟩

/-! ### Questions -/

/-- The node a path names, links followed. -/
def stat (d : Disk) (p : Path) : Except IoError Node := do
  match ← d.find p true with
  | .present c => .ok c.node
  | .vacant .. => .error (.os .noEntry)

/-- The node a path names; a link at the end is itself. -/
def lstat (d : Disk) (p : Path) : Except IoError Node := do
  match ← d.find p false with
  | .present c => .ok c.node
  | .vacant .. => .error (.os .noEntry)

def exists_ (d : Disk) (p : Path) : Bool := (d.stat p).isOk

/-- Whether anything is there, a dangling link included. -/
def occupied (d : Disk) (p : Path) : Bool := (d.lstat p).isOk

def isDir (d : Disk) (p : Path) : Bool :=
  match d.stat p with
  | .ok n => n.isDir
  | .error _ => false

def isFile (d : Disk) (p : Path) : Bool :=
  match d.stat p with
  | .ok n => n.isFile
  | .error _ => false

/-- The absolute path of a location. -/
def pathOf (loc : Location) : Path := Path.ofSegments .root loc

/-- The absolute path without links that names the same place. -/
def canonical (d : Disk) (p : Path) : Except IoError Path := do
  match ← d.find p true with
  | .present c => .ok (pathOf c.location)
  | .vacant .. => .error (.os .noEntry)

def readBytes (d : Disk) (p : Path) : Except IoError ByteArray := do
  match ← d.stat p with
  | .file content _ => .ok content
  | _ => .error (.os .isDirectory)

def readText (d : Disk) (p : Path) : Except IoError String := do
  match String.fromUTF8? (← d.readBytes p) with
  | some s => .ok s
  | none => .error .notText

end Disk

end Sideload
