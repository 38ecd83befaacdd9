import Sideload.Config.Record
import Sideload.Text.Quoted
import Sideload.Toml.Reader
import Sideload.Toml.Text
import Sideload.World

/-!
The configuration file.

A missing file stands for the defaults. What is written names every field that is set.
-/

namespace Sideload

/-- Why the configuration cannot be read or written. -/
inductive ConfigError where
  | unreadable (file : Path) (cause : IoError)
  | malformed (file : Path)
  | noDirectory (dir : Path) (cause : IoError)
  | unwritable (file : Path) (cause : IoError)
  /-- A path that is no text has no written form. -/
  | unwritten
  deriving DecidableEq

namespace ConfigError

def message : ConfigError → String
  | unreadable file _ => s!"Failed to read config from {file.quoted}"
  | malformed file => s!"Failed to parse config from {file.quoted}"
  | noDirectory dir _ => s!"Failed to create config directory {dir.quoted}"
  | unwritable file _ => s!"Failed to write config to {file.quoted}"
  | unwritten => "Failed to serialize config"

def cause? : ConfigError → Option IoError
  | unreadable _ cause => some cause
  | malformed _ => none
  | noDirectory _ cause => some cause
  | unwritable _ cause => some cause
  | unwritten => none

/-- The message and the cause after it. -/
def fullMessage (e : ConfigError) : String :=
  match e.cause? with
  | some cause => s!"{e.message}: {cause.message}"
  | none => e.message

end ConfigError

namespace Config

def fileName : String := "config.toml"

/-! ### Text -/

/-- One line: a name and its written value. -/
def memberLine (name : String) (value : List Char) : List Char :=
  name.toList ++ " = ".toList ++ value ++ ['\n']

def boolText (b : Bool) : List Char := (if b then "true" else "false").toList

/-- The text of the configuration, if its paths are text. -/
def text? (c : Config) : Option String := do
  let directory ← c.logging.directory.text?
  let target ← match c.install.targetDir with
    | none => some []
    | some dir => dir.text?.map fun s => memberLine "target_dir" (Toml.stringText s)
  some (String.ofList
    ("[install]\n".toList ++
      memberLine "python" (Toml.stringText c.install.python) ++
      target ++
      memberLine "show_usage" (boolText c.install.showUsage) ++
      "\n[logging]\n".toList ++
      memberLine "enabled" (boolText c.logging.enabled) ++
      memberLine "stderr" (boolText c.logging.stderr) ++
      memberLine "level" (Toml.stringText c.logging.level) ++
      memberLine "directory" (Toml.stringText directory) ++
      memberLine "rotation" (Toml.stringText c.logging.rotation) ++
      memberLine "file_prefix" (Toml.stringText c.logging.filePrefix)))

/-- The configuration of a text. -/
def ofText? (s : String) : Option Config := do ofData? true (← Toml.ofText? s)

/-! ### The file -/

/-- Reads the configuration of a directory. -/
def load (d : Disk) (dir : Path) : Except ConfigError Config :=
  let file := dir.child fileName
  if !d.exists_ file then .ok {}
  else match d.readText file with
    | .error e => .error (.unreadable file e)
    | .ok s => match ofText? s with
      | some c => .ok c
      | none => .error (.malformed file)

/-- Writes the configuration of a directory, which is made if it is missing. -/
def save (c : Config) (dir : Path) : Work ConfigError Unit := do
  let file := dir.child fileName
  (Work.onDisk (DiskM.createDirAll dir)).orFail (.noDirectory dir)
  let some s := c.text? | throw .unwritten
  (Work.change (·.writeText file s)).orFail (.unwritable file)

end Config

end Sideload
