import Sideload.Path

/-!
The configuration.
-/

namespace Sideload

/-- Where and how modules are installed. -/
structure InstallConfig where
  /-- The interpreter that is asked for its package directory. -/
  python : String := "python3"
  /-- The package directory, if it is not to be asked for. -/
  targetDir : Option Path := none
  /-- Whether hints are printed after a file is installed. -/
  showUsage : Bool := true
  deriving DecidableEq, Inhabited

/-- Where the log goes. -/
structure LoggingConfig where
  /-- Whether there is a log file. -/
  enabled : Bool := false
  stderr : Bool := true
  /-- The level of the log file. -/
  level : String := "info"
  directory : Path := Path.ofString "logs"
  /-- How often a new log file is begun. -/
  rotation : String := "daily"
  filePrefix : String := "nopkg.log"
  deriving DecidableEq, Inhabited

structure Config where
  install : InstallConfig := {}
  logging : LoggingConfig := {}
  deriving DecidableEq, Inhabited

end Sideload
