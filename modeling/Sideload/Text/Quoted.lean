import Sideload.Path
import Sideload.Text.Printable

/-!
Paths in quotes.

A quoted path stands on one line whatever its characters are: quotes, backslashes and whatever does not
show by itself are written as escapes, and bytes that are no text in hexadecimal.
-/

namespace Sideload

/-- A number in hexadecimal with small letters. -/
def hexText (n : Nat) : List Char := Nat.toDigits 16 n

/-- One character inside quotes. -/
def quotedChar (c : Char) : List Char :=
  if c = '\x00' then ['\\', '0']
  else if c = '\t' then ['\\', 't']
  else if c = '\n' then ['\\', 'n']
  else if c = '\r' then ['\\', 'r']
  else if c = '"' ∨ c = '\'' ∨ c = '\\' then ['\\', c]
  else if isPrintable c then [c]
  else "\\u\x7b".toList ++ hexText c.toNat ++ ['\x7d']

/-- A byte inside quotes. -/
def quotedByte (b : UInt8) : List Char :=
  let digits := (hexText b.toNat).map Char.toUpper
  "\\x".toList ++ List.replicate (2 - digits.length) '0' ++ digits

def Glyph.quoted : Glyph → List Char
  | char c => quotedChar c
  | stray bytes => bytes.flatMap quotedByte

/-- The path in quotes. -/
def Path.quoted (p : Path) : String :=
  String.ofList ('"' :: p.glyphs.flatMap Glyph.quoted ++ ['"'])

end Sideload
