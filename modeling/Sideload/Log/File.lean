import Sideload.Config.Basic
import Sideload.Disk.Error
import Sideload.Log.Filter
import Sideload.Log.Text
import Sideload.Text.Blank
import Sideload.World

/-!
The log file.

Its name tells the time span that it is for, so that a new file is begun when the next one starts. Files
are added to and never emptied.
-/

namespace Sideload.Log

/-- How often a new file is begun. -/
inductive Rotation where
  | minutely
  | hourly
  | daily
  | never
  deriving DecidableEq

namespace Rotation

def word : Rotation → String
  | minutely => "minutely"
  | hourly => "hourly"
  | daily => "daily"
  | never => "never"

def all : List Rotation := [minutely, hourly, daily, never]

/-- The rotation of a word in any case. -/
def ofWord? (w : String) : Option Rotation := all.find? (·.word = lowerAscii w)

/-- The span that a moment falls into. -/
def stamp (r : Rotation) (now : Moment) : List Char :=
  match r with
  | minutely => now.dateText ++ '-' :: Moment.padded 2 now.hour ++ '-' :: Moment.padded 2 now.minute
  | hourly => now.dateText ++ '-' :: Moment.padded 2 now.hour
  | _ => now.dateText

/-- The name of the file for a moment. -/
def fileName (r : Rotation) (stem : String) (now : Moment) : String :=
  let stamp := String.ofList (r.stamp now)
  if stem.isEmpty then stamp
  else if r = never then stem
  else s!"{stem}.{stamp}"

end Rotation

/-- The level of a word in any case. -/
def Level.ofWord? (w : String) : Option Level := all.find? fun l => lowerAscii l.label = lowerAscii w

/-- Why there is no log file. -/
inductive OpenError where
  | noDirectory (dir : Path) (cause : IoError)
  | noFile (file : Path) (cause : IoError)
  deriving DecidableEq

def OpenError.message : OpenError → String
  | noDirectory dir cause => s!"Failed to create log directory: {dir.display}: {cause.message}"
  | noFile file cause => s!"Failed to create log file: {file.display}: {cause.message}"

/-- An open log file. -/
structure Sink where
  file : Path
  filter : Filter
  /-- What is said about settings that mean nothing. -/
  warnings : List String

/-- What the labels of the program's topics begin with. -/
def ownTarget : String := Topic.program.label

/-- The setting of a word, and a warning if the word means nothing. -/
def setting {α : Type} (read : String → Option α) (fallback : α) (warning : String) (w : String) :
    α × List String :=
  match read w with
  | some a => (a, [])
  | none => (fallback, [warning])

/-- Makes sure that a file is there. -/
def touch (file : Path) : Work IoError Unit := Work.change (·.append file .empty)

/-- Makes sure that a file is there, and for that also the directories above it. -/
def create (file : Path) : Work IoError Unit := do
  match ← (touch file).attempt with
  | .ok () => return
  | .error e => match file.parent? with
    | some dir =>
      Work.onDisk (DiskM.createDirAll dir)
      touch file
    | none => throw e

/-- Opens the log file. A relative directory is taken from `home`. -/
def Sink.open (config : LoggingConfig) (home : Path) : Work OpenError Sink := do
  let dir := home.join config.directory
  (Work.onDisk (DiskM.createDirAll dir)).orFail (.noDirectory dir)
  let (rotation, noRotation) := setting Rotation.ofWord? .daily
    s!"Unknown rotation strategy '{config.rotation}', defaulting to 'daily'" config.rotation
  let file := dir.child (rotation.fileName config.filePrefix (← Work.now))
  (create file).orFail (.noFile file)
  let (level, noLevel) := setting Level.ofWord? .info
    s!"Unknown log level '{config.level}', defaulting to 'info'" config.level
  return ⟨file, [Rule.upTo ownTarget level], noRotation ++ noLevel⟩

/-- Adds records to the file, unless the file has gone. -/
def Sink.write (sink : Sink) (records : List Record) : Work IoError Unit := do
  let now ← Work.now
  let text := String.join ((records.filter sink.filter.allows).map (·.fileLine now))
  if (← Work.disk).isFile sink.file then
    Work.change (·.append sink.file text.toUTF8)

end Sideload.Log
