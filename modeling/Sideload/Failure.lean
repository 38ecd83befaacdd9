import Sideload.Disk.Error
import Sideload.Registry.Line
import Sideload.Text.Quoted

/-!
Why an operation on modules fails.

Every failure has a message, and a code with which the program ends. Where a failure passes on the
failure of a file operation, that one is its cause.
-/

namespace Sideload

/-- What makes a module name unfit. -/
inductive NameFault where
  | empty
  | badStart
  | badPart
  | underivable
  | noParent
  deriving DecidableEq

namespace NameFault

def message : NameFault → String
  | empty => "name is empty"
  | badStart => "must start with a letter or underscore"
  | badPart => "only letters, digits and underscores are allowed"
  | underivable => "cannot derive a module name from this path"
  | noParent => "source has no parent directory"

end NameFault

/-- How a program ends. -/
inductive Exit where
  | code (n : Nat)
  | signal (n : Nat)
  deriving DecidableEq

namespace Exit

def signalNames : List (Nat × String) :=
  [(1, "SIGHUP"), (2, "SIGINT"), (3, "SIGQUIT"), (4, "SIGILL"), (5, "SIGTRAP"), (6, "SIGABRT"),
   (7, "SIGBUS"), (8, "SIGFPE"), (9, "SIGKILL"), (10, "SIGUSR1"), (11, "SIGSEGV"), (12, "SIGUSR2"),
   (13, "SIGPIPE"), (14, "SIGALRM"), (15, "SIGTERM"), (16, "SIGSTKFLT"), (17, "SIGCHLD"),
   (18, "SIGCONT"), (19, "SIGSTOP"), (20, "SIGTSTP"), (21, "SIGTTIN"), (22, "SIGTTOU"),
   (23, "SIGURG"), (24, "SIGXCPU"), (25, "SIGXFSZ"), (26, "SIGVTALRM"), (27, "SIGPROF"),
   (28, "SIGWINCH"), (29, "SIGIO"), (30, "SIGPWR"), (31, "SIGSYS")]

def message : Exit → String
  | code n => s!"exit status: {n}"
  | signal n => match signalNames.lookup n with
    | some name => s!"signal: {n} ({name})"
    | none => s!"signal: {n}"

end Exit

/-- Why an interpreter does not tell its package directory. -/
inductive InterpreterFault where
  | notStarted (cause : IoError)
  | nulInName
  | failed (exit : Exit) (complaint : String)
  | notADirectory (answer : Path)
  deriving DecidableEq

namespace InterpreterFault

def message : InterpreterFault → String
  | notStarted cause => cause.message
  | nulInName => "nul byte found in provided data"
  | failed exit complaint => s!"exited with {exit.message}: {complaint}"
  | notADirectory answer => s!"reported '{answer.display}', which is not a directory"

end InterpreterFault

/-- The particulars of a failure. -/
inductive Reason where
  | line (fault : LineError)
  | name (fault : NameFault)
  | field (fault : LineFault)
  | interpreter (fault : InterpreterFault)
  /-- An entry whose artifact is a root has no package directory. -/
  | noTargetDir (artifact : Path)
  | said (text : String)
  deriving DecidableEq

namespace Reason

def message : Reason → String
  | line fault => fault.message
  | name fault => fault.message
  | field fault => fault.message
  | interpreter fault => fault.message
  | noTargetDir artifact => s!"install path {artifact.quoted} has no parent"
  | said text => text

end Reason

/-- Why a file operation at a path fails, or that no home is known. -/
inductive Cause where
  | file (e : IoError)
  | noHome
  deriving DecidableEq

def Cause.message : Cause → String
  | file e => e.message
  | noHome => "could not determine home directory"

/-- Why an operation fails. -/
inductive Failure where
  | sourceNotFound (path : Path)
  /-- The destination is there and belongs to no entry. -/
  | conflict (name : String) (path : Path)
  | permissionDenied (path : Path)
  | corrupt (path : Path) (line : Nat) (why : Reason)
  | notFound (name : String)
  | invalidName (name : String) (why : Reason)
  | invalidEntry (name : String) (why : Reason)
  | interpreter (python : String) (why : Reason)
  /-- The entry is forgotten but its artifact is still there. -/
  | cleanup (name : String) (path : Path) (cause : Cause)
  | io (path : Path) (cause : Cause)
  deriving DecidableEq

namespace Failure

/-- A file operation at `path` failed; a refusal by the system has a failure of its own. -/
def ofIo (path : Path) (e : IoError) : Failure :=
  if e.isDenial then permissionDenied path else io path (.file e)

/-- The directory of the program's own files is not known. -/
def noHome : Failure := io (Path.ofString "~") .noHome

def message : Failure → String
  | sourceNotFound path => s!"Source not found: {path.display}"
  | conflict name path => s!"Module '{name}' already exists at {path.display} (not managed by nopkg)"
  | permissionDenied path => s!"Permission denied: cannot write to {path.display}"
  | corrupt path line why => s!"Corrupt registry {path.display}:{line}: {why.message}"
  | notFound name => s!"Module '{name}' not found"
  | invalidName name why => s!"Invalid module name '{name}': {why.message}"
  | invalidEntry name why => s!"Cannot record module '{name}': {why.message}"
  | interpreter python why =>
    s!"Could not determine site-packages directory using '{python}': {why.message}"
  | cleanup name path cause =>
    s!"Removed '{name}' from the registry but failed to delete {path.display}: {cause.message}"
  | io path cause => s!"I/O error at {path.display}: {cause.message}"

/-- The failure that this one passes on. -/
def cause? : Failure → Option Cause
  | cleanup _ _ cause => some cause
  | io _ cause => some cause
  | _ => none

/-- The message, and after it that of the cause once more. -/
def fullMessage (f : Failure) : String :=
  match f.cause? with
  | some cause => s!"{f.message}: {cause.message}"
  | none => f.message

/-- The code with which the program ends. -/
def exitCode : Failure → Nat
  | io .. => 1
  | sourceNotFound _ => 2
  | conflict .. => 3
  | permissionDenied _ => 4
  | corrupt .. => 5
  | notFound _ => 6
  | invalidName .. => 7
  | invalidEntry .. => 7
  | interpreter .. => 8
  | cleanup .. => 9

theorem exitCode_ne_zero (f : Failure) : f.exitCode ≠ 0 := by cases f <;> simp [exitCode]

end Failure

end Sideload
