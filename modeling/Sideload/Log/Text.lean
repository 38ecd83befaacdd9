import Sideload.Log.Record
import Sideload.Time.Moment

/-!
Log records as lines.
-/

namespace Sideload.Log

/-- Control characters that could steer a terminal are written out. -/
def harmlessChar (c : Char) : List Char :=
  let two := (Nat.toDigits 16 c.toNat).leftpad 2 '0'
  if c = '\x1b' ∨ c = '\x07' ∨ c = '\x08' ∨ c = '\x0c' ∨ c = '\x7f' then '\\' :: 'x' :: two
  else if 0x80 ≤ c.toNat ∧ c.toNat ≤ 0x9F then "\\u\x7b".toList ++ two ++ ['\x7d']
  else [c]

def harmless (s : String) : String := String.ofList (s.toList.flatMap harmlessChar)

namespace Level

/-- The label in five places, at their right end. -/
def column (l : Level) : String := String.ofList (l.label.toList.leftpad 5 ' ')

/-- The number of the colour that terminals show a level in. -/
def colour : Level → Nat
  | error => 31
  | warn => 33
  | info => 32
  | debug => 34
  | trace => 35

end Level

namespace Record

/-- The line for a terminal. -/
def consoleLine (coloured : Bool) (r : Record) : String :=
  let level := if coloured then s!"\x1b[{r.level.colour}m{r.level.column}\x1b[0m" else r.level.column
  s!"{level} {harmless r.text}\n"

/-- The line for a file. -/
def fileLine (now : Moment) (r : Record) : String :=
  let time := String.ofList now.text
  s!"{time} {r.level.column} {r.topic.label}: {harmless r.text}\n"

end Record

end Sideload.Log
