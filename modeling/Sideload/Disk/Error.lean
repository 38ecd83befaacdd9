import Sideload.Path

/-!
Why a file operation fails.

Most failures come from the system and have a number. The others are found by the program itself: text
that is no text, a walk that meets a loop of links.
-/

namespace Sideload

/-- A failure with a system error number. -/
structure OsError where
  code : Nat
  deriving DecidableEq, Inhabited

namespace OsError

def notPermitted : OsError := ⟨1⟩
def noEntry : OsError := ⟨2⟩
def badFormat : OsError := ⟨8⟩
def accessDenied : OsError := ⟨13⟩
def busy : OsError := ⟨16⟩
def exists_ : OsError := ⟨17⟩
def notDirectory : OsError := ⟨20⟩
def isDirectory : OsError := ⟨21⟩
def invalid : OsError := ⟨22⟩
def nameTooLong : OsError := ⟨36⟩
def notEmpty : OsError := ⟨39⟩
def tooManyLinks : OsError := ⟨40⟩

/-- The system's words for its error numbers. -/
def words : List (Nat × String) :=
  [(1, "Operation not permitted"), (2, "No such file or directory"), (3, "No such process"),
   (4, "Interrupted system call"), (5, "Input/output error"), (6, "No such device or address"),
   (7, "Argument list too long"), (8, "Exec format error"), (9, "Bad file descriptor"),
   (10, "No child processes"), (11, "Resource temporarily unavailable"), (12, "Cannot allocate memory"),
   (13, "Permission denied"), (14, "Bad address"), (15, "Block device required"),
   (16, "Device or resource busy"), (17, "File exists"), (18, "Invalid cross-device link"),
   (19, "No such device"), (20, "Not a directory"), (21, "Is a directory"), (22, "Invalid argument"),
   (23, "Too many open files in system"), (24, "Too many open files"),
   (25, "Inappropriate ioctl for device"), (26, "Text file busy"), (27, "File too large"),
   (28, "No space left on device"), (29, "Illegal seek"), (30, "Read-only file system"),
   (31, "Too many links"), (32, "Broken pipe"), (33, "Numerical argument out of domain"),
   (34, "Numerical result out of range"), (35, "Resource deadlock avoided"), (36, "File name too long"),
   (37, "No locks available"), (38, "Function not implemented"), (39, "Directory not empty"),
   (40, "Too many levels of symbolic links"), (42, "No message of desired type"),
   (61, "No data available"), (62, "Timer expired"), (71, "Protocol error"),
   (75, "Value too large for defined data type"), (84, "Invalid or incomplete multibyte or wide character"),
   (95, "Operation not supported"), (98, "Address already in use"), (104, "Connection reset by peer"),
   (110, "Connection timed out"), (111, "Connection refused"), (116, "Stale file handle"),
   (117, "Structure needs cleaning"), (121, "Remote I/O error"), (122, "Disk quota exceeded"),
   (125, "Operation canceled")]

def message (e : OsError) : String :=
  let text := (words.lookup e.code).getD s!"Unknown error {e.code}"
  s!"{text} (os error {e.code})"

/-- The two failures that mean a refusal by the system. -/
def isDenial (e : OsError) : Bool := e == notPermitted || e == accessDenied

end OsError

/-- Why a file operation fails. -/
inductive IoError where
  | os (e : OsError)
  /-- A path with a zero character never reaches the system. -/
  | nulInPath
  | notText
  | notRegular
  /-- Met while walking a tree, at the given path. -/
  | walking (path : Path) (cause : IoError)
  /-- A link met while walking leads back to a directory above it. -/
  | loop (path ancestor : Path)
  deriving DecidableEq, Inhabited

namespace IoError

def message : IoError → String
  | os e => e.message
  | nulInPath => "file name contained an unexpected NUL byte"
  | notText => "stream did not contain valid UTF-8"
  | notRegular => "the source path is neither a regular file nor a symlink to a regular file"
  | walking path cause => s!"IO error for operation on {path.display}: {cause.message}"
  | loop path ancestor => s!"File system loop found: {path.display} points to an ancestor {ancestor.display}"

def isDenial : IoError → Bool
  | os e => e.isDenial
  | walking _ cause => cause.isDenial
  | _ => false

def isMissing : IoError → Bool
  | os e => e == .noEntry
  | walking _ cause => cause.isMissing
  | _ => false

def isExisting : IoError → Bool
  | os e => e == .exists_
  | _ => false

end IoError

end Sideload
