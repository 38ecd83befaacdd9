import Sideload.Text.Glyph

/-!
Reading bytes as UTF-8.

A character is one to four bytes. Bytes that start no character are collected into stray runs, each as
long as it is still the beginning of some character: such a run is shown as a single replacement
character.
-/

namespace Sideload.Utf8

/-- What a leading byte asks for: the number of bytes that follow, its own bits, and the range of the
first byte that follows. Overlong forms, surrogates and numbers past the last character are ruled out by
that range. -/
structure Lead where
  following : Nat
  bits : Nat
  lo : Nat
  hi : Nat

def lead? (b : Nat) : Option Lead :=
  if b < 0x80 then some ⟨0, b, 0x80, 0xBF⟩
  else if b < 0xC2 then none
  else if b < 0xE0 then some ⟨1, b - 0xC0, 0x80, 0xBF⟩
  else if b = 0xE0 then some ⟨2, 0, 0xA0, 0xBF⟩
  else if b = 0xED then some ⟨2, b - 0xE0, 0x80, 0x9F⟩
  else if b < 0xF0 then some ⟨2, b - 0xE0, 0x80, 0xBF⟩
  else if b = 0xF0 then some ⟨3, 0, 0x90, 0xBF⟩
  else if b < 0xF4 then some ⟨3, b - 0xF0, 0x80, 0xBF⟩
  else if b = 0xF4 then some ⟨3, 4, 0x80, 0x8F⟩
  else none

/-- Reads the `n` bytes that continue a character; `seen` holds the bytes of it so far, the last first.
The result is the glyph and the number of further bytes it takes. -/
def extend : (n bits lo hi : Nat) → (seen : List UInt8) → List UInt8 → Glyph × Nat
  | 0, bits, _, _, seen, _ => (.char (Char.ofNat bits), seen.length - 1)
  | _ + 1, _, _, _, seen, [] => (.stray seen.reverse, seen.length - 1)
  | n + 1, bits, lo, hi, seen, b :: rest =>
    if lo ≤ b.toNat ∧ b.toNat ≤ hi then
      extend n (bits * 64 + (b.toNat - 0x80)) 0x80 0xBF (b :: seen) rest
    else (.stray seen.reverse, seen.length - 1)

/-- The first glyph of `b :: rest`, and how many bytes of `rest` belong to it. -/
def first (b : UInt8) (rest : List UInt8) : Glyph × Nat :=
  match lead? b.toNat with
  | none => (.stray [b], 0)
  | some l => extend l.following l.bits l.lo l.hi [b] rest

/-- Bytes as glyphs. -/
def glyphs : List UInt8 → List Glyph
  | [] => []
  | b :: rest =>
    let step := first b rest
    step.1 :: glyphs (rest.drop step.2)
termination_by bytes => bytes.length
decreasing_by simp only [List.length_drop, List.length_cons]; omega

/-- Bytes as a string for people: stray runs become replacement characters. -/
def lossy (bytes : List UInt8) : String := Glyph.display (glyphs bytes)

end Sideload.Utf8
