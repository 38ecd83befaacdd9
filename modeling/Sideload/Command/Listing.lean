import Sideload.Disk.Lookup
import Sideload.Registry.Entry

/-!
The table of installed modules.

Each cell is filled up with spaces to the width of its column, and one space stands between columns. Names
and paths that are too long are cut, names at their end and paths at their start; the cut is marked.
-/

namespace Sideload.Listing

/-- What stands for the part of a text that is cut off. -/
def ellipsis : List Char := "...".toList

/-- The text if it is no longer than `limit`, else its start. -/
def cutEnd (limit : Nat) (cs : List Char) : List Char :=
  if cs.length ≤ limit then cs else cs.take (limit - ellipsis.length) ++ ellipsis

/-- The text if it is no longer than `limit`, else its end. -/
def cutStart (limit : Nat) (cs : List Char) : List Char :=
  if cs.length ≤ limit then cs else ellipsis ++ cs.drop (cs.length - (limit - ellipsis.length))

/-- The text filled up with spaces to `width`. A longer text stays as it is. -/
def fill (width : Nat) (cs : List Char) : List Char := cs ++ List.replicate (width - cs.length) ' '

theorem length_cutEnd_le (limit : Nat) (h : ellipsis.length ≤ limit) (cs : List Char) :
    (cutEnd limit cs).length ≤ limit := by
  unfold cutEnd
  split
  · assumption
  · rw [List.length_append, List.length_take]
    omega

theorem length_cutStart_le (limit : Nat) (h : ellipsis.length ≤ limit) (cs : List Char) :
    (cutStart limit cs).length ≤ limit := by
  unfold cutStart
  split
  · assumption
  · rw [List.length_append, List.length_drop]
    omega

theorem length_fill (width : Nat) (cs : List Char) : (fill width cs).length = max width cs.length := by
  rw [fill, List.length_append, List.length_replicate]
  omega

/-! ### Rows -/

/-- The cells of a row. -/
structure Row where
  name : List Char
  mode : List Char
  source : List Char
  installed : List Char
  deriving DecidableEq

def nameWidth : Nat := 20

def modeWidth : Nat := 9

def sourceWidth : Nat := 45

def installedWidth : Nat := 23

/-- The longest name that is shown whole. -/
def nameLimit : Nat := 18

/-- The longest source path that is shown whole. -/
def sourceLimit : Nat := 43

/-- What is said of a module whose artifact is gone. -/
def missingNote : List Char := " (missing)".toList

def header : Row := ⟨"NAME".toList, "MODE".toList, "SOURCE".toList, "INSTALLED".toList⟩

namespace Row

/-- The row as a line. -/
def text (r : Row) : List Char :=
  fill nameWidth r.name ++ ' ' :: fill modeWidth r.mode ++ ' ' :: fill sourceWidth r.source ++
    ' ' :: fill installedWidth r.installed

/-- The row of an entry. -/
def ofEntry (d : Disk) (e : Entry) : Row :=
  let source := cutStart sourceLimit e.source.display.toList
  { name := cutEnd nameLimit e.name.toList
    mode := e.mode.label.toList
    source := if d.occupied e.artifact then source else source ++ missingNote
    installed := e.installedAt.tableText }

end Row

/-! ### The table -/

def title : String := "Modules installed by nopkg:"

def rule : List Char := List.replicate 100 '-'

/-- What is said when there are no modules. -/
def nothing : String := "No modules installed by nopkg\n"

/-- The table of some entries. -/
def table (d : Disk) (es : List Entry) : String :=
  let lines := header.text :: rule :: es.map fun e => (Row.ofEntry d e).text
  let body := String.ofList (lines.flatMap fun l => l ++ ['\n'])
  s!"{title}\n\n{body}\nTotal: {es.length} module(s)\n"

/-- The table, or that there is nothing to show. -/
def text (d : Disk) (es : List Entry) : String := if es.isEmpty then nothing else table d es

end Sideload.Listing
