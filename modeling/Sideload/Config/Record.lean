import Sideload.Config.Basic
import Sideload.Data.Value

/-!
The configuration as a record of a data format.

Every field may be left out and has its default then. `extra` says whether a list that stands for a
record may be too long.
-/

namespace Sideload

namespace Config

/-- A field that has a default. -/
def readField {α : Type} (read : Data → Option α) (fallback : α) : Option Data → Option α
  | none => some fallback
  | some d => read d

def readPath (d : Data) : Option Path := d.string?.map Path.ofString

/-- A path that may be unset. -/
def readPath? : Data → Option (Option Path)
  | .null => some none
  | d => (readPath d).map some

end Config

open Config

namespace InstallConfig

def fieldNames : List String := ["python", "target_dir", "show_usage"]

def ofData? (extra : Bool) (d : Data) : Option InstallConfig := do
  match ← d.fields? fieldNames extra with
  | [python, targetDir, showUsage] =>
    let fallback : InstallConfig := {}
    some
      { python := ← readField Data.string? fallback.python python
        targetDir := ← readField readPath? fallback.targetDir targetDir
        showUsage := ← readField Data.bool? fallback.showUsage showUsage }
  | _ => none

end InstallConfig

namespace LoggingConfig

def fieldNames : List String :=
  ["enabled", "stderr", "level", "directory", "rotation", "file_prefix"]

def ofData? (extra : Bool) (d : Data) : Option LoggingConfig := do
  match ← d.fields? fieldNames extra with
  | [enabled, stderr, level, directory, rotation, filePrefix] =>
    let fallback : LoggingConfig := {}
    some
      { enabled := ← readField Data.bool? fallback.enabled enabled
        stderr := ← readField Data.bool? fallback.stderr stderr
        level := ← readField Data.string? fallback.level level
        directory := ← readField readPath fallback.directory directory
        rotation := ← readField Data.string? fallback.rotation rotation
        filePrefix := ← readField Data.string? fallback.filePrefix filePrefix }
  | _ => none

end LoggingConfig

namespace Config

def sectionNames : List String := ["install", "logging"]

def ofData? (extra : Bool) (d : Data) : Option Config := do
  match ← d.fields? sectionNames extra with
  | [install, logging] =>
    some
      { install := ← readField (InstallConfig.ofData? extra) {} install
        logging := ← readField (LoggingConfig.ofData? extra) {} logging }
  | _ => none

end Config

end Sideload
