/-!
Text that may hold bytes which are no text.

File names and program output are bytes. Where the bytes are UTF-8 they are read as characters; a run of
bytes that starts no character is kept as it is and shown as one replacement character. A value without
such runs is a string, and `text?` gives it back.
-/

namespace Sideload

/-- One element of byte text: a character, or a run of bytes that is none. -/
inductive Glyph where
  | char (c : Char)
  | stray (bytes : List UInt8)
  deriving DecidableEq, Inhabited

namespace Glyph

/-- The character shown for a glyph; a stray run shows as the replacement character. -/
def shown : Glyph → Char
  | char c => c
  | stray _ => '\uFFFD'

def char? : Glyph → Option Char
  | char c => some c
  | stray _ => none

/-- The number of bytes a glyph takes on disk. -/
def byteSize : Glyph → Nat
  | char c => c.utf8Size
  | stray bytes => bytes.length

/-- The number of bytes that glyphs take together. -/
def size : List Glyph → Nat
  | [] => 0
  | g :: gs => g.byteSize + size gs

/-- The glyphs of a string. -/
def ofString (s : String) : List Glyph := s.toList.map char

/-- The string that glyphs spell, if none of them is stray. -/
def text? (gs : List Glyph) : Option String := (gs.mapM char?).map String.ofList

/-- Glyphs as a string for people, stray runs replaced. -/
def display (gs : List Glyph) : String := String.ofList (gs.map shown)

theorem mapM_char?_map_char (cs : List Char) : (cs.map char).mapM char? = some cs := by
  induction cs with
  | nil => rfl
  | cons c cs ih => simp [List.mapM_cons, char?, ih]

@[simp] theorem text?_ofString (s : String) : text? (ofString s) = some s := by
  rw [text?, ofString, mapM_char?_map_char]
  simp

@[simp] theorem display_ofString (s : String) : display (ofString s) = s := by
  simp only [display, ofString, List.map_map]
  have : (shown ∘ char) = id := rfl
  rw [this, List.map_id, String.ofList_toList]

end Glyph

end Sideload
