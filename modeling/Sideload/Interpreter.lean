import Sideload.Config.Basic
import Sideload.Environment
import Sideload.Shell.Run
import Sideload.Text.Blank
import Sideload.Text.Utf8
import Sideload.World

/-!
Asking an interpreter for its package directory.

The interpreter is a program on the disk. It is started with a question and answers on its output; white
space around the answer does not count.
-/

namespace Sideload

open Log (Level Topic)

namespace Interpreter

/-! ### Starting a program -/

/-- Why a program is not started. -/
inductive StartError where
  | io (e : OsError)
  | nulInName
  deriving DecidableEq

/-- The interpreter that the first line of a script names. -/
def shebang? (content : ByteArray) : Option String :=
  match content.toList with
  | 35 :: 33 :: rest =>
    let line := (rest.takeWhile (· ≠ 10)).map fun b => Char.ofNat b.toNat
    match (line.dropWhile Shell.isBlank).takeWhile (fun c => !Shell.isBlank c) with
    | [] => none
    | name => String.fromUTF8? (Shell.toBytes name)
  | _ => none

/-- The file at a path, if it can be started. -/
def executable (d : Disk) (p : Path) : Except OsError ByteArray :=
  match d.stat p with
  | .ok (.file content true) => .ok content
  | .ok _ => .error .accessDenied
  | .error (.os e) => .error e
  | .error _ => .error .noEntry

/-- The first of several files that can be started. That one could not be started for another reason than
being absent is remembered. -/
def search (d : Disk) (refused : Option OsError) : List Path → Except OsError (Path × ByteArray)
  | [] => .error (refused.getD .noEntry)
  | p :: ps => match executable d p with
    | .ok content => .ok (p, content)
    | .error e => search d (if e = .accessDenied then some e else refused) ps

/-- The file of a program: a name without a slash is looked for in the search path. -/
def locate (d : Disk) (env : Environment) (program : String) : Except OsError (Path × ByteArray) :=
  let p := Path.ofString program
  if program.isEmpty then .error .noEntry
  else if program.toList.contains '/' then (executable d p).map fun content => (p, content)
  else search d none (env.searchPath.map (·.join p))

/-- Runs a program with arguments. A program is a script for the shell. -/
def start (d : Disk) (env : Environment) (program : String) (args : List String) :
    Except StartError Shell.Outcome := do
  if program.toList.contains '\x00' then throw .nulInName
  let (p, content) ← (locate d env program).mapError .io
  match shebang? content with
  | none => throw (.io .badFormat)
  | some shell =>
    let _ ← (executable d (Path.ofString shell)).mapError .io
    return Shell.run d env.bindings (p.display :: args) content

/-! ### The question -/

/-- What a Python interpreter is asked. -/
def question : List String := ["-c", "import sysconfig; print(sysconfig.get_path('purelib'))"]

/-- The package directory of an interpreter. -/
def packageDir (d : Disk) (env : Environment) (python : String) : Except InterpreterFault Path :=
  match start d env python question with
  | .error .nulInName => .error .nulInName
  | .error (.io e) => .error (.notStarted (.os e))
  | .ok outcome =>
    if outcome.exit ≠ .code 0 then
      .error (.failed outcome.exit (trimString (Utf8.lossy outcome.err.toList)))
    else
      let answer := Path.ofString (trimString (Utf8.lossy outcome.out.toList))
      if answer.isEmpty || !d.isDir answer then .error (.notADirectory answer) else .ok answer

end Interpreter

/-- The package directory that modules go into: the configured one, or that of the interpreter. -/
def resolveTargetDir (env : Environment) (config : InstallConfig) : Work Failure Path := do
  match config.targetDir with
  | some dir =>
    Work.log .debug .interpreter s!"Using configured target directory {dir.quoted}"
    return dir
  | none =>
    match Interpreter.packageDir (← Work.disk) env config.python with
    | .ok dir =>
      Work.log .debug .interpreter s!"{config.python} site-packages: {dir.quoted}"
      return dir
    | .error fault => throw (.interpreter config.python (.interpreter fault))

end Sideload
