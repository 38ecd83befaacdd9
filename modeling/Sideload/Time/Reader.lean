import Sideload.Text.Blank
import Sideload.Time.Moment

/-!
Reading moments.

`Moment.read` takes the form that the registry writes, with any offset from universal time in place of
`Z`. `Moment.readRelaxed` also takes signed years, short numbers, and blanks between the parts; records
from outside are read with it.
-/

namespace Sideload

/-- Why a text is no moment. -/
inductive TimeError where
  | tooShort
  | tooLong
  | invalid
  | outOfRange
  deriving DecidableEq

namespace TimeError

def message : TimeError → String
  | tooShort => "premature end of input"
  | tooLong => "trailing input"
  | invalid => "input contains invalid characters"
  | outOfRange => "input is out of range"

end TimeError

namespace Moment

/-! ### Parts

Each reader takes what it reads from the front and gives back the rest. -/

def digit? (c : Char) : Option Nat := if c.isDigit then some (c.toNat - 48) else none

/-- Exactly `n` digits; `acc` is the number so far. -/
def readDigits : (n acc : Nat) → List Char → Except TimeError (Nat × List Char)
  | 0, acc, cs => .ok (acc, cs)
  | _ + 1, _, [] => .error .tooShort
  | n + 1, acc, c :: cs => match digit? c with
    | some k => readDigits n (acc * 10 + k) cs
    | none => .error .invalid

def readChar (want : Char) : List Char → Except TimeError (List Char)
  | [] => .error .tooShort
  | c :: cs => if c = want then .ok cs else .error .invalid

/-- The mark between date and time. -/
def readMark : List Char → Except TimeError (List Char)
  | [] => .error .tooShort
  | c :: cs => if c = 'T' ∨ c = 't' ∨ c = ' ' then .ok cs else .error .invalid

/-- From one to `most` digits. The first number says how many there were. -/
def readSomeDigits (most : Nat) (cs : List Char) : Except TimeError (Nat × Nat × List Char) :=
  let digits := (cs.take most).takeWhile Char.isDigit
  match digits, cs with
  | [], [] => .error .tooShort
  | [], _ => .error .invalid
  | _, _ => .ok (digits.length, digits.foldl (fun n c => n * 10 + (c.toNat - 48)) 0, cs.drop digits.length)

/-- Nanoseconds after a point, if there is one; digits past the ninth are passed over. -/
def readFraction : List Char → Except TimeError (Nat × List Char)
  | '.' :: cs => do
    let (count, n, rest) ← readSomeDigits 9 cs
    .ok (n * Nat.pow 10 (9 - count), rest.dropWhile Char.isDigit)
  | cs => .ok (0, cs)

/-- How many bytes a text has in UTF-8. -/
def byteLength : List Char → Nat
  | [] => 0
  | c :: cs => c.utf8Size + byteLength cs

/-- Two digits, for hours and minutes of an offset. -/
def readPair : List Char → Except TimeError (Nat × List Char)
  | a :: b :: cs => match digit? a, digit? b with
    | some x, some y => .ok (x * 10 + y, cs)
    | _, _ => .error .invalid
  | cs => if byteLength cs < 2 then .error .tooShort else .error .invalid

/-- An offset from universal time in seconds. `readColon` reads what stands between its two numbers. -/
def readOffset (readColon : List Char → Except TimeError (List Char)) :
    List Char → Except TimeError (Int × List Char)
  | [] => .error .tooShort
  | c :: cs =>
    if c = 'Z' ∨ c = 'z' then .ok (0, cs)
    else if c = '+' ∨ c = '-' ∨ c = '\u2212' then do
      let (hours, cs) ← readPair cs
      let cs ← readColon cs
      let (minutes, cs) ← readPair cs
      if 60 ≤ minutes then .error .outOfRange
      else
        let seconds : Int := hours * 3600 + minutes * 60
        .ok (if c = '+' then seconds else -seconds, cs)
    else .error .invalid

/-- Hours, minutes and seconds as a second of the day and extra nanoseconds: second 60 is a leap second. -/
def timeOfDay? (h m s : Nat) : Option (Nat × Nat) :=
  if h < 24 ∧ m < 60 then
    if s < 60 then some (h * 3600 + m * 60 + s, 0)
    else if s = 60 then some (h * 3600 + m * 60 + 59, 1000000000)
    else none
  else none

def orRange {α : Type} : Option α → Except TimeError α
  | some a => .ok a
  | none => .error .outOfRange

/-! ### Whole moments -/

/-- The shortest text of a date and a time of day without an offset. -/
def leastLength : Nat := 19

/-- Reads the written form with any offset less than a day. -/
def read (s : String) : Except TimeError Moment := do
  let cs := s.toList
  if byteLength cs < leastLength then throw .tooShort
  let (y, cs) ← readDigits 4 0 cs
  let cs ← readChar '-' cs
  let (m, cs) ← readDigits 2 0 cs
  let cs ← readChar '-' cs
  let (d, cs) ← readDigits 2 0 cs
  let date ← orRange (Date.ofNumbers? y m d)
  let cs ← readMark cs
  let (h, cs) ← readDigits 2 0 cs
  let cs ← readChar ':' cs
  let (min, cs) ← readDigits 2 0 cs
  let cs ← readChar ':' cs
  let (sec, cs) ← readDigits 2 0 cs
  let (frac, cs) ← readFraction cs
  let (second, extra) ← orRange (timeOfDay? h min sec)
  let (offset, cs) ← readOffset (readChar ':') cs
  if offset ≤ -86400 ∨ 86400 ≤ offset then throw .outOfRange
  if cs ≠ [] then throw .tooLong
  orRange (ofLocal? date second (extra + frac) offset)

/-- A year with an optional sign; without one it has at most four digits. -/
def readYear (cs : List Char) : Except TimeError (Int × List Char) :=
  match trimStart cs with
  | '-' :: rest => do
    let (_, n, rest) ← readSomeDigits rest.length rest
    .ok (-(n : Int), rest)
  | '+' :: rest => do
    let (_, n, rest) ← readSomeDigits rest.length rest
    .ok (n, rest)
  | rest => do
    let (_, n, rest) ← readSomeDigits 4 rest
    .ok (n, rest)

/-- One or two digits after blanks. -/
def readShort (cs : List Char) : Except TimeError (Nat × List Char) := do
  let (_, n, rest) ← readSomeDigits 2 (trimStart cs)
  .ok (n, rest)

/-- Any blanks and colons, also none. -/
def skipColons (cs : List Char) : Except TimeError (List Char) :=
  .ok (cs.dropWhile fun c => c = ':' || isBlank c)

/-- Reads the written form with blanks between its parts, short numbers and years of any length. -/
def readRelaxed (s : String) : Except TimeError Moment := do
  let (y, cs) ← readYear s.toList
  let cs ← readChar '-' (trimStart cs)
  let (m, cs) ← readShort cs
  let cs ← readChar '-' (trimStart cs)
  let (d, cs) ← readShort cs
  let cs ← readMark cs
  let (h, cs) ← readShort cs
  let cs ← readChar ':' (trimStart cs)
  let (min, cs) ← readShort cs
  let cs ← readChar ':' (trimStart cs)
  let (sec, cs) ← readShort cs
  let (frac, cs) ← readFraction cs
  let cs := trimStart cs
  let (offset, cs) ←
    if (cs.take 3).map Char.toLower = ['u', 't', 'c'] then .ok (0, cs.drop 3)
    else readOffset skipColons cs
  if trimStart cs ≠ [] then throw .tooLong
  let date ← orRange (Date.ofNumbers? y m d)
  let (second, extra) ← orRange (timeOfDay? h min sec)
  if offset ≤ -86400 ∨ 86400 ≤ offset then throw .outOfRange
  orRange (ofLocal? date second (extra + frac) offset)

end Moment

end Sideload
