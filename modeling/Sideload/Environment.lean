import Sideload.Path

/-!
The variables that a program is started with, and the directory where it keeps its files.
-/

namespace Sideload

/-- Variables by name, and the home of the account if it is known. -/
structure Environment where
  bindings : List (String × String)
  accountHome : Option Path
  deriving Inhabited

namespace Environment

def get? (env : Environment) (name : String) : Option String := env.bindings.lookup name

/-- A variable that is set to something. -/
def nonEmpty? (env : Environment) (name : String) : Option String :=
  (env.get? name).filter (· ≠ "")

/-- The variable that names the directory of the program's own files. -/
def homeVariable : String := "NOPKG_HOME"

def homeDir? (env : Environment) : Option Path :=
  match env.nonEmpty? "HOME" with
  | some home => some (Path.ofString home)
  | none => env.accountHome

/-- The directory for data files; a variable that gives a relative path does not count. -/
def dataHome? (env : Environment) : Option Path :=
  match env.homeDir? with
  | none => none
  | some home =>
    match ((env.get? "XDG_DATA_HOME").map Path.ofString).filter (·.isAbsolute) with
    | some dir => some dir
    | none => some (home.child ".local/share")

/-- The directory of the program's own files. -/
def globalDir? (env : Environment) : Option Path :=
  match env.nonEmpty? homeVariable with
  | some dir => some (Path.ofString dir)
  | none => env.dataHome?.map (·.child "nopkg")

/-- The directories that programs are looked for in. -/
def searchPath (env : Environment) : List Path :=
  let text := (env.get? "PATH").getD "/bin:/usr/bin"
  (text.splitOn ":").map Path.ofString

end Environment

end Sideload
