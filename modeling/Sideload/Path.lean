import Sideload.Text.Glyph

/-!
Paths.

A path is text with `/` between its segments. The text is kept as it was written: `/a//b` and `/a/b/.`
name the same place as `/a/b`, and `sameAs` says so, but each is shown the way it came. Empty segments
and `.` segments do not count, except for a leading `.` of a relative path.
-/

namespace Sideload

/-- A segment of a path, or the name of a directory entry. -/
abbrev Name := List Glyph

namespace Name

def dot : Name := [.char '.']

def dotDot : Name := [.char '.', .char '.']

def byteSize (n : Name) : Nat := Glyph.size n

end Name

/-- A path as written. -/
structure Path where
  glyphs : List Glyph
  deriving DecidableEq, Inhabited

/-- Text cut at every slash; there is always at least one segment. -/
def splitSlash : List Glyph → List Name
  | [] => [[]]
  | g :: gs =>
    if g = .char '/' then [] :: splitSlash gs
    else match splitSlash gs with
      | [] => [[g]]
      | n :: ns => (g :: n) :: ns

/-- Segments put together with slashes. -/
def joinSlash : List Name → List Glyph
  | [] => []
  | [n] => n
  | n :: ns => n ++ .char '/' :: joinSlash ns

theorem splitSlash_ne_nil (gs : List Glyph) : splitSlash gs ≠ [] := by
  cases gs with
  | nil => simp [splitSlash]
  | cons g gs =>
    simp only [splitSlash]
    split
    · simp
    · split <;> simp

theorem joinSlash_splitSlash (gs : List Glyph) : joinSlash (splitSlash gs) = gs := by
  induction gs with
  | nil => rfl
  | cons g gs ih =>
    simp only [splitSlash]
    by_cases h : g = .char '/'
    · subst h
      rw [if_pos rfl]
      cases hs : splitSlash gs with
      | nil => exact absurd hs (splitSlash_ne_nil gs)
      | cons n ns =>
        rw [hs] at ih
        show .char '/' :: joinSlash (n :: ns) = _
        rw [ih]
    · rw [if_neg h]
      cases hs : splitSlash gs with
      | nil => exact absurd hs (splitSlash_ne_nil gs)
      | cons n ns =>
        rw [hs] at ih
        cases ns with
        | nil => simpa [joinSlash] using ih
        | cons m ms =>
          show (g :: n) ++ .char '/' :: joinSlash (m :: ms) = _
          have : n ++ .char '/' :: joinSlash (m :: ms) = gs := ih
          simp [this]

namespace Path

def empty : Path := ⟨[]⟩

def root : Path := ⟨[.char '/']⟩

def ofString (s : String) : Path := ⟨Glyph.ofString s⟩

def ofName (n : Name) : Path := ⟨n⟩

/-- The path as a string, if it is one. -/
def text? (p : Path) : Option String := Glyph.text? p.glyphs

/-- The path for people. -/
def display (p : Path) : String := Glyph.display p.glyphs

@[simp] theorem text?_ofString (s : String) : (ofString s).text? = some s := by
  simp [text?, ofString]

@[simp] theorem display_ofString (s : String) : (ofString s).display = s := by
  simp [display, ofString]

def isEmpty (p : Path) : Bool := p.glyphs.isEmpty

def isAbsolute (p : Path) : Bool := p.glyphs.head? == some (.char '/')

def endsInSlash (p : Path) : Bool := p.glyphs.getLast? == some (.char '/')

def byteSize (p : Path) : Nat := Glyph.size p.glyphs

/-- `q` taken from `p`: an absolute `q` stands for itself. -/
def join (p q : Path) : Path :=
  if q.isAbsolute then q
  else if p.isEmpty || p.endsInSlash then ⟨p.glyphs ++ q.glyphs⟩
  else ⟨p.glyphs ++ .char '/' :: q.glyphs⟩

def child (p : Path) (name : String) : Path := p.join (ofString name)

/-! ### Segments

`anchor` is the part that no cutting removes: the root of an absolute path, or the leading `.` of a
relative one. `body` is the rest. A blank segment counts for nothing. -/

inductive Anchor where
  | root
  | here
  | free
  deriving DecidableEq

def Anchor.segments : Anchor → List Name
  | .root => [[]]
  | .here => [Name.dot]
  | .free => []

def isBlank (n : Name) : Bool := n == [] || n == Name.dot

def anchored (p : Path) : Anchor × List Name :=
  match splitSlash p.glyphs with
  | [] => (.free, [])
  | [n] => if n = Name.dot then (.here, []) else (.free, [n])
  | n :: ns =>
    if n = [] then (.root, ns) else if n = Name.dot then (.here, ns) else (.free, n :: ns)

/-- The anchor, and the body without blank segments at its end. -/
def trimmed (p : Path) : Anchor × List Name :=
  (p.anchored.1, (p.anchored.2.reverse.dropWhile isBlank).reverse)

/-- The path with the given anchor and body. -/
def ofSegments : Anchor → List Name → Path
  | .root, [] => root
  | a, body => ⟨joinSlash (a.segments ++ body)⟩

/-- One part of a path that counts. -/
inductive Component where
  | root
  | here
  | up
  | name (n : Name)
  deriving DecidableEq

def Anchor.components : Anchor → List Component
  | .root => [.root]
  | .here => [.here]
  | .free => []

def components (p : Path) : List Component :=
  p.anchored.1.components ++
    (p.anchored.2.filter (fun n => !isBlank n)).map fun n =>
      if n = Name.dotDot then .up else .name n

/-- Two spellings of one path. -/
def sameAs (p q : Path) : Bool := p.components == q.components

/-- The path without its last component; the root and the empty path have no parent. -/
def parent? (p : Path) : Option Path :=
  match p.trimmed with
  | (.here, []) => some empty
  | (_, []) => none
  | (a, body) => some (ofSegments a ((body.dropLast.reverse.dropWhile isBlank).reverse))

/-- The path and its parents, the path first. -/
def ancestors (p : Path) : List Path :=
  go (p.anchored.2.length + 1) p
where
  go : Nat → Path → List Path
    | 0, p => [p]
    | n + 1, p => match p.parent? with
      | none => [p]
      | some q => p :: go n q

/-- The last component, if it is a name. -/
def fileName? (p : Path) : Option Name :=
  match p.trimmed.2.getLast? with
  | some n => if n = Name.dotDot then none else some n
  | none => none

/-- A file name cut at its last dot. A dot at the start cuts nothing off. -/
def splitDot (n : Name) : Name × Option Name :=
  let after := (n.reverse.takeWhile (· ≠ .char '.')).reverse
  let before := (n.reverse.drop (after.length + 1)).reverse
  if after.length < n.length ∧ before ≠ [] then (before, some after) else (n, none)

/-- The file name without its extension. -/
def stem? (p : Path) : Option Name := p.fileName?.map fun n => (splitDot n).1

/-- What follows the last dot of the file name. -/
def extension? (p : Path) : Option Name := p.fileName?.bind fun n => (splitDot n).2

/-- The path with another extension; a path without a file name stays as it is. -/
def withExtension (p : Path) (ext : String) : Path :=
  match p.stem? with
  | none => p
  | some s => ofSegments p.trimmed.1 (p.trimmed.2.dropLast ++ [s ++ .char '.' :: Glyph.ofString ext])

end Path

end Sideload
