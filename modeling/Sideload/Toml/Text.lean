/-!
Writing strings in TOML.

A string has up to four written forms. The first of these that fits is taken: plain quotes, single quotes
with nothing escaped, three quotes, three single quotes. If none fits, escapes are used: on one line, or
between three quotes if the string has line breaks.
-/

namespace Sideload.Toml

/-- Whether a character is a control that only an escape can write. Tabs and line breaks are not. -/
def isControl (c : Char) : Bool :=
  c ≠ '\t' && c ≠ '\n' && (c.toNat ≤ 0x1F || c.toNat = 0x7F)

/-- The length of the longest run of a character; `run` is the length of the present one. -/
def longestRun (c : Char) : (run : Nat) → List Char → Nat
  | run, [] => run
  | run, d :: ds => if d = c then max (run + 1) (longestRun c (run + 1) ds) else longestRun c 0 ds

/-- The written forms of a string. -/
inductive Form where
  | basic
  | literal
  | multiBasic
  | multiLiteral
  deriving DecidableEq

namespace Form

def isMulti : Form → Bool
  | multiBasic | multiLiteral => true
  | _ => false

/-- What stands at both ends. -/
def delimiter : Form → List Char
  | basic => ['"']
  | literal => ['\'']
  | multiBasic => ['"', '"', '"']
  | multiLiteral => ['\'', '\'', '\'']

/-- How many quotes may stand in a row without an escape. -/
def quoteLimit : Form → Nat
  | multiBasic => 2
  | _ => 0

/-- The form of a string. -/
def of (cs : List Char) : Form :=
  let controls := cs.any isControl
  let breaks := cs.contains '\n'
  let backslashes := cs.contains '\\'
  if !controls && !breaks && !backslashes && longestRun '"' 0 cs = 0 then basic
  else if !controls && !breaks && longestRun '\'' 0 cs = 0 then literal
  else if !controls && !backslashes && longestRun '"' 0 cs ≤ 2 then multiBasic
  else if !controls && longestRun '\'' 0 cs ≤ 2 then multiLiteral
  else if breaks then multiBasic
  else basic

end Form

/-- A digit of four bits, with a capital letter from ten on. -/
def hexDigit (n : Nat) : Char := Char.ofNat (if n < 10 then 48 + n else 55 + n)

/-- A character below 256 as an escape. -/
def numberEscape (c : Char) : List Char :=
  ['\\', 'u', '0', '0', hexDigit (c.toNat / 16), hexDigit (c.toNat % 16)]

/-- A character that is no quote, between quotes. -/
def escapedChar (multi : Bool) (c : Char) : List Char :=
  if c = '\x08' then ['\\', 'b']
  else if c = '\t' then ['\\', 't']
  else if c = '\n' then (if multi then ['\n'] else ['\\', 'n'])
  else if c = '\x0c' then ['\\', 'f']
  else if c = '\r' then ['\\', 'r']
  else if c = '\\' then ['\\', '\\']
  else if isControl c then numberEscape c
  else [c]

/-- Text between quotes. `run` counts the quotes just before it that are written as they are; one that
would make the run longer than `limit` is escaped, and ends the run as every escape does. -/
def escaped (multi : Bool) (limit : Nat) : (run : Nat) → List Char → List Char
  | _, [] => []
  | run, '"' :: cs =>
    if run < limit then '"' :: escaped multi limit (run + 1) cs
    else '\\' :: '"' :: escaped multi limit 0 cs
  | _, c :: cs => escapedChar multi c ++ escaped multi limit 0 cs

/-- A string as it is written. -/
def stringText (s : String) : List Char :=
  let cs := s.toList
  let form := Form.of cs
  let opening := form.delimiter ++ if form.isMulti && cs.contains '\n' then ['\n'] else []
  let body := match form with
    | .literal | .multiLiteral => cs
    | _ => escaped form.isMulti form.quoteLimit 0 cs
  opening ++ body ++ form.delimiter

end Sideload.Toml
