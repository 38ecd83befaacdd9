import Sideload.Disk.Change
import Sideload.Log.Record
import Sideload.Time.Moment

/-!
What the operations act on, and how they are put together.

An operation sees the disk, the clock and the log. It either gives a value or fails; in both cases what
it has done to the disk so far stays done.
-/

namespace Sideload

/-- The disk, the present moment, and the log with the newest record first. -/
structure World where
  disk : Disk
  now : Moment
  log : List Log.Record
  deriving Inhabited

/-- Work on the world that may fail. -/
abbrev Work (ε α : Type) := ExceptT ε (StateM World) α

namespace Work

variable {ε ε' α : Type}

/-- Writes a log record. -/
def log (level : Log.Level) (topic : Log.Topic) (text : String) : Work ε Unit :=
  modify fun w => { w with log := ⟨level, topic, text⟩ :: w.log }

def disk : Work ε Disk := do return (← get).disk

def now : Work ε Moment := do return (← get).now

/-- A change of the disk. -/
def onDisk (m : DiskM α) : Work IoError α := fun w =>
  let (answer, d) := m.run w.disk
  (answer, { w with disk := d })

/-- A single change of the disk. -/
def change (f : Disk → Except IoError Disk) : Work IoError Unit := onDisk (DiskM.step f)

/-- A question to the disk. -/
def ask (f : Disk → Except IoError α) : Work IoError α := onDisk (DiskM.ask f)

/-- Work whose failure is told in other words. -/
def orFail (m : Work ε α) (f : ε → ε') : Work ε' α := ExceptT.adapt f m

/-- Work whose failure is an answer like any other. -/
def attempt (m : Work ε α) : Work ε' (Except ε α) := fun w =>
  let (answer, w) := m.run w
  (.ok answer, w)

/-- An answer that is there already. -/
def ofExcept (r : Except ε α) : Work ε α := fun w => (r, w)

end Work

end Sideload
