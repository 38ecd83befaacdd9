import Sideload.Registry.Entry
import Sideload.Time.Reader

/-!
Entries as lines of text.

A line has five fields with bars between them: name, source, mode, artifact, time. A field can hold
neither a bar nor a line break, so an entry that has one in its name or paths has no line.
-/

namespace Sideload

/-- What stands between two fields. -/
def fieldBar : Char := '|'

def fieldCount : Nat := 5

/-- Text cut at every `sep`; there is always at least one part. -/
def splitAt (sep : Char) : List Char → List (List Char)
  | [] => [[]]
  | c :: cs =>
    if c = sep then [] :: splitAt sep cs
    else match splitAt sep cs with
      | [] => [[c]]
      | part :: parts => (c :: part) :: parts

/-- Parts put together with `sep` between them. -/
def joinWith (sep : Char) : List (List Char) → List Char
  | [] => []
  | [part] => part
  | part :: parts => part ++ sep :: joinWith sep parts

theorem splitAt_of_not_mem {sep : Char} {cs : List Char} (h : sep ∉ cs) : splitAt sep cs = [cs] := by
  induction cs with
  | nil => rfl
  | cons c cs ih =>
    simp only [List.mem_cons, not_or] at h
    simp [splitAt, Ne.symm h.1, ih h.2]

theorem splitAt_append {sep : Char} {cs : List Char} (h : sep ∉ cs) (rest : List Char) :
    splitAt sep (cs ++ sep :: rest) = cs :: splitAt sep rest := by
  induction cs with
  | nil => simp [splitAt]
  | cons c cs ih =>
    simp only [List.mem_cons, not_or] at h
    simp [splitAt, Ne.symm h.1, ih h.2]

/-- Cutting undoes putting together, if no part holds the separator. -/
theorem splitAt_joinWith {sep : Char} {parts : List (List Char)} (hne : parts ≠ [])
    (h : ∀ part ∈ parts, sep ∉ part) : splitAt sep (joinWith sep parts) = parts := by
  induction parts with
  | nil => exact absurd rfl hne
  | cons part parts ih =>
    cases parts with
    | nil => exact splitAt_of_not_mem (h part (by simp))
    | cons next more =>
      show splitAt sep (part ++ sep :: joinWith sep (next :: more)) = _
      rw [splitAt_append (h part (by simp)), ih (by simp) fun p hp => h p (by simp [hp])]

/-- Why an entry has no line. -/
inductive LineFault where
  | notText (path : Path)
  | breaksLine (field : String)
  deriving DecidableEq

namespace LineFault

def message : LineFault → String
  | notText path => s!"path {path.display} is not valid UTF-8"
  | breaksLine field => s!"'{field}' contains '|' or a line break"

end LineFault

/-- Why a line is no entry. -/
inductive LineError where
  | fieldCount (found : Nat)
  | emptyName
  | relativeSource (text : String)
  | unknownMode (text : String)
  | relativeArtifact (text : String)
  | badTime (text : String) (why : TimeError)
  deriving DecidableEq

namespace LineError

def message : LineError → String
  | fieldCount found => s!"expected {Sideload.fieldCount} fields, found {found}"
  | emptyName => "empty module name"
  | relativeSource text => s!"source path '{text}' is not absolute"
  | unknownMode text => s!"unknown install mode '{text}'"
  | relativeArtifact text => s!"install path '{text}' is not absolute"
  | badTime text why => s!"invalid timestamp '{text}': {why.message}"

end LineError

/-- Whether text can be a field. -/
def fitsField (s : String) : Bool :=
  s.toList.all fun c => c ≠ fieldBar && c ≠ '\n' && c ≠ '\r'

def checkField (s : String) : Except LineFault String :=
  if fitsField s then .ok s else .error (.breaksLine s)

def pathField (p : Path) : Except LineFault String :=
  match p.text? with
  | none => .error (.notText p)
  | some s => checkField s

namespace Entry

/-- The fields of an entry in the order of the line. -/
def fields (e : Entry) : Except LineFault (List (List Char)) := do
  let source ← pathField e.source
  let artifact ← pathField e.artifact
  let name ← checkField e.name
  .ok [name.toList, source.toList, e.mode.keyword.toList, artifact.toList, e.installedAt.text]

/-- The line of an entry. -/
def toLine (e : Entry) : Except LineFault String :=
  e.fields.map fun fs => String.ofList (joinWith fieldBar fs)

/-- The entry of a line. The first field that is wrong decides the error; the mode is looked at before
the artifact, the time last. -/
def ofLine (line : String) : Except LineError Entry :=
  match splitAt fieldBar line.toList with
  | [name, source, mode, artifact, time] => do
    let source := String.ofList source
    let mode := String.ofList mode
    let artifact := String.ofList artifact
    let time := String.ofList time
    if name = [] then throw .emptyName
    if !(Path.ofString source).isAbsolute then throw (.relativeSource source)
    let some m := Mode.ofText? mode | throw (.unknownMode mode)
    if !(Path.ofString artifact).isAbsolute then throw (.relativeArtifact artifact)
    let at_ ← (Moment.read time).mapError (.badTime time)
    .ok ⟨String.ofList name, Path.ofString source, m, Path.ofString artifact, at_⟩
  | parts => .error (.fieldCount parts.length)

end Entry

end Sideload
