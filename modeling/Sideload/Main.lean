import Sideload.Program
import Sideload.Registry.File

/-!
The program on a machine.

The files that a command may look at are read into a disk, the program runs on that disk, and the changes
are carried over to the machine. Links are taken to lead where the machine says they lead. An interpreter
that is no script for the shell cannot be asked for its package directory.
-/

namespace Sideload.Machine

/-! ### Reading -/

/-- The text of a location. -/
def pathText (loc : Location) : String := (Disk.pathOf loc).display

/-- What kind of thing is at a location; links are not followed. -/
def kind? (loc : Location) : IO (Option IO.FS.FileType) := do
  try
    let m ← (System.mkFilePath [pathText loc]).symlinkMetadata
    return some m.type
  catch _ => return none

/-- The path that a link leads to, with all other links on the way followed. -/
def leadsTo (loc : Location) : IO Path := do
  let real ← IO.FS.realPath (pathText loc)
  return Path.ofString real.toString

/-- The tree at a location, and where its links lead. -/
partial def readTree (loc : Location) : IO (Option Node × List Path) := do
  match ← kind? loc with
  | some .file =>
    let content ← IO.FS.readBinFile (pathText loc)
    return (some (.file content (Interpreter.shebang? content).isSome), [])
  | some .symlink =>
    let target ← leadsTo loc
    return (some (.link target), [target])
  | some .dir =>
    let mut entries := []
    let mut targets := []
    for e in ← (System.mkFilePath [pathText loc]).readDir do
      let name := Glyph.ofString e.fileName
      let (node, more) ← readTree (loc ++ [name])
      entries := entries ++ node.toList.map fun n => (name, n)
      targets := targets ++ more
    return (some (.dir entries), targets)
  | _ => return (none, [])

/-- The disk with a node at a location. -/
def put (d : Disk) (loc : Location) (n : Node) : Disk :=
  match loc.getLast? with
  | some name => { d with root := d.root.insert loc.dropLast name n }
  | none => { d with root := n }

/-- A tree with nothing but the directories on the way to a location. -/
def way : Location → Node
  | [] => .dir []
  | name :: loc => .dir [(name, way loc)]

mutual

/-- Adds what is at a path, and what the links there lead to. -/
partial def load (d : Disk) (p : Path) : IO Disk := do
  let whole := (Disk.pathOf d.cwd).join p
  descend d [] (whole.trimmed.2)

/-- Adds the way to a location and the tree there. A link on the way is gone along. -/
partial def descend (d : Disk) (loc : Location) : List Name → IO Disk
  | [] => do
    if ((d.root.get? loc).map (!·.entries.isEmpty)).getD false then return d
    let (node?, targets) ← readTree loc
    targets.foldlM load (match node? with
      | some node => put d loc node
      | none => d)
  | name :: names => do
    if name = Name.dotDot then return ← descend d loc.dropLast names
    let here := loc ++ [name]
    match ← kind? here with
    | some .dir =>
      descend (if (d.root.get? here).isSome then d else put d here (.dir [])) here names
    | some .symlink =>
      let target ← leadsTo here
      load (put d here (.link target)) (names.foldl (fun q n => q.join (.ofName n)) target)
    | some _ =>
      let (node?, _) ← readTree here
      return match node? with
        | some node => put d here node
        | none => d
    | none => return d

end

/-! ### Writing -/

partial def remove (loc : Location) : Node → IO Unit
  | .dir es => do
    for (name, n) in es do remove (loc ++ [name]) n
    IO.FS.removeDir (pathText loc)
  | _ => IO.FS.removeFile (pathText loc)

partial def write (loc : Location) : Node → IO Unit
  | .dir es => do
    IO.FS.createDirAll (pathText loc)
    for (name, n) in es do write (loc ++ [name]) n
  | .file content _ => IO.FS.writeBinFile (pathText loc) content
  | .link _ => return

/-- Carries the difference between two trees over to the machine. -/
partial def carryOver (loc : Location) : Option Node → Option Node → IO Unit
  | none, none => return
  | some old, none => remove loc old
  | none, some new => write loc new
  | some (.dir old), some (.dir new) => do
    for (name, n) in old do
      carryOver (loc ++ [name]) (some n) (Node.lookup? name new)
    for (name, n) in new do
      if (Node.lookup? name old).isNone then write (loc ++ [name]) n
  | some (.file old _), some (.file new _) => do
    if old ≠ new then IO.FS.writeBinFile (pathText loc) new
  | some (.link _), some (.link _) => return
  | some old, some new => do
    remove loc old
    write loc new

/-! ### The surroundings -/

/-- The variables that the program looks at. -/
def variableNames : List String :=
  [Environment.homeVariable, "HOME", "XDG_DATA_HOME", "PATH", Log.Console.filterVariable,
   Log.Console.plainVariable]

def environment : IO Environment := do
  let mut vars := []
  for name in variableNames do
    if let some value ← IO.getEnv name then vars := vars ++ [(name, value)]
  return ⟨vars, none⟩

/-- The present moment: the time at which a new file is made. -/
def now : IO Moment := do
  let (_, file) ← IO.FS.createTempFile
  let time := (← file.metadata).modified
  IO.FS.removeFile file
  return (Moment.ofEpoch? time.sec.toNat time.nsec.toNat).getD default

/-- The paths, besides the program's own files, that matter to a command. -/
def places (d : Disk) (env : Environment) (home : Path) (c : Command) : List Path :=
  let config := match Config.load d home with
    | .ok config => home.join config.logging.directory :: config.install.targetDir.toList ++
        env.searchPath.map (·.child config.install.python)
    | .error _ => []
  let world : World := { disk := d, now := default, log := [] }
  let recorded := match ((Shelf.ofHome home).list.run world).1 with
    | .ok es => es.flatMap fun e => [e.source, e.artifact]
    | .error _ => []
  match c with
  | .install source _ _ => source :: config ++ recorded
  | _ => config ++ recorded

/-- The disk with all that matters to a command line. -/
def diskFor (env : Environment) (args : List String) : IO Disk := do
  let here ← IO.currentDir
  let cwd := (Path.ofString here.toString).trimmed.2
  let d : Disk := { root := way cwd, cwd := cwd }
  match CommandLine.parse args, env.globalDir? with
  | .ok c, some home =>
    let d ← load d home
    (places d env home c).foldlM load d
  | _, _ => return d

end Sideload.Machine

open Sideload in
/-- Runs the program. -/
def main (args : List String) : IO UInt32 := do
  let env ← Machine.environment
  let disk ← Machine.diskFor env args
  let (outcome, world) := (Program.run env args).run { disk := disk, now := ← Machine.now, log := [] }
  Machine.carryOver [] (some disk.root) (some world.disk.root)
  IO.print outcome.out
  IO.eprint outcome.err
  return outcome.code.toUInt32
