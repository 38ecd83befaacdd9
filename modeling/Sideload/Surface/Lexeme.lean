import Sideload.Surface.Layout
import Sideload.Surface.Syntax

/-!
Lexemes: words, numbers and strings.

Each function takes what it reads from the front of the text.
-/

namespace Sideload.Surface

/-! ### Words -/

/-- The words that are never names. -/
def reservedWords : List String :=
  ["False", "None", "True", "and", "as", "assert", "async", "await", "break", "class", "continue", "def",
   "del", "elif", "else", "except", "finally", "for", "from", "global", "if", "import", "in", "is",
   "lambda", "nonlocal", "not", "or", "pass", "raise", "return", "try", "while", "with", "yield"]

/-- The word at the front, or nothing. -/
def wordAt : List Char → List Char
  | [] => []
  | c :: cs => if isIdentifierStart c then c :: cs.takeWhile isIdentifierPart else []

/-- Whether a word is a name wherever a name is expected. -/
def isName (word : String) : Bool := !word.isEmpty && !reservedWords.contains word

/-- Whether a word is a name inside an expression. -/
def isExprName (word : String) : Bool := isName word || word = "async" || word = "await"

/-! ### Numbers -/

/-- Digits in groups with single underscores after or between them; gives what follows. -/
def dropGroups : List Char → List Char
  | '_' :: cs => match cs with
    | d :: ds => if d.isDigit then dropGroups ds else d :: ds
    | [] => []
  | c :: cs => if c.isDigit then dropGroups cs else c :: cs
  | [] => []

/-- Drops digit groups if there is a digit at the front. -/
def digits? : List Char → Option (List Char)
  | c :: cs => if c.isDigit then some (dropGroups cs) else none
  | [] => none

def isHexDigit (c : Char) : Bool := c.isDigit || ('a' ≤ c && c ≤ 'f') || ('A' ≤ c && c ≤ 'F')

def isOctalDigit (c : Char) : Bool := '0' ≤ c && c ≤ '7'

def isBinaryDigit (c : Char) : Bool := c = '0' || c = '1'

/-- Digits of another base, each with an optional underscore before it. -/
def dropBased (isDigit : Char → Bool) : List Char → List Char
  | '_' :: c :: cs => if isDigit c then dropBased isDigit cs else '_' :: c :: cs
  | c :: cs => if isDigit c then dropBased isDigit cs else c :: cs
  | [] => []

/-- A number after the mark of its base, with an optional mark of length. -/
def based? (isDigit : Char → Bool) (cs : List Char) : Option (List Char) :=
  let after := dropBased isDigit cs
  if after.length = cs.length then none
  else match after with
    | 'l' :: rest => some rest
    | 'L' :: rest => some rest
    | rest => some rest

/-- The exponent of a number. -/
def exponent? : List Char → Option (List Char)
  | c :: cs =>
    if c = 'e' ∨ c = 'E' then match cs with
      | '+' :: ds => digits? ds
      | '-' :: ds => digits? ds
      | ds => digits? ds
    else none
  | [] => none

def dropExponent (cs : List Char) : List Char := (exponent? cs).getD cs

/-- The mark of an imaginary number. -/
def dropImaginary : List Char → List Char
  | 'j' :: cs => cs
  | 'J' :: cs => cs
  | cs => cs

/-- The mark of a whole number. -/
def dropSuffix : List Char → List Char
  | 'l' :: cs => cs
  | 'L' :: cs => cs
  | cs => dropImaginary cs

/-- A number and what follows it: the longest text that is one. -/
def number? (cs : List Char) : Option (Expr × List Char) :=
  let decimal : Option (Expr × List Char) :=
    match digits? cs with
    | some ('.' :: rest) =>
      some (.float, dropImaginary (dropExponent ((digits? rest).getD rest)))
    | some rest => match exponent? rest with
      | some rest => some (.float, dropImaginary rest)
      | none => some (.integer, dropSuffix rest)
    | none => match cs with
      | '.' :: rest => (digits? rest).map fun rest => (.float, dropImaginary (dropExponent rest))
      | _ => none
  let other : Option (List Char) :=
    match cs with
    | '0' :: c :: rest =>
      if c = 'x' ∨ c = 'X' then based? isHexDigit rest
      else if c = 'o' ∨ c = 'O' then based? isOctalDigit rest
      else if c = 'b' ∨ c = 'B' then based? isBinaryDigit rest
      else none
    | _ => none
  match other with
  | some rest => some (.integer, rest)
  | none => decimal

/-! ### Strings -/

/-- How a string was begun. -/
structure Quote where
  mark : Char
  triple : Bool
  format : Bool
  raw : Bool
  bytes : Bool
  deriving DecidableEq

/-- The letters before a quote. -/
def flags : List Char → Quote → Quote × List Char
  | [], q => (q, [])
  | c :: cs, q =>
    if c = 'f' ∨ c = 'F' then flags cs { q with format := true }
    else if c = 'r' ∨ c = 'R' then flags cs { q with raw := true }
    else if c = 'b' ∨ c = 'B' then flags cs { q with bytes := true }
    else if c = 'u' ∨ c = 'U' then flags cs q
    else (q, c :: cs)

/-- The beginning of a string: any of its letters in any order, and one quote or three. -/
def quote? (cs : List Char) : Option (Quote × List Char) :=
  match flags cs ⟨'"', false, false, false, false⟩ with
  | (q, c :: rest) =>
    if !isQuote c then none
    else if c.toNat = 0x60 then some ({ q with mark := c }, rest)
    else match rest with
      | d :: e :: rest' =>
        if d = c ∧ e = c then some ({ q with mark := c, triple := true }, rest')
        else some ({ q with mark := c }, rest)
      | _ => some ({ q with mark := c }, rest)
  | (_, []) => none

/-- How many characters after a backslash belong to its escape. -/
def escapeLength : List Char → Nat
  | 'u' :: cs => if ((cs.take 4).filter isHexDigit).length = 4 then 5 else 0
  | 'U' :: cs => if ((cs.take 8).filter isHexDigit).length = 8 then 9 else 0
  | 'x' :: cs => if ((cs.take 2).filter isHexDigit).length = 2 then 3 else 0
  | 'N' :: '\x7b' :: cs =>
    let name := cs.takeWhile (· ≠ '\x7d')
    if name.isEmpty || name.length = cs.length then 0 else name.length + 3
  | '\r' :: '\n' :: _ => 2
  | c :: cs =>
    if ['\n', '\'', '"', 'a', 'b', 'f', 'r', 'n', 't', 'v', '\\'].contains c then 1
    else if c.isDigit && ((cs.take 2).filter Char.isDigit).length = 2 then 3
    else 0
  | [] => 0

/-- Drops a line break if it comes first. -/
def dropLineBreak : List Char → List Char
  | '\r' :: '\n' :: cs => cs
  | '\r' :: cs => cs
  | '\n' :: cs => cs
  | cs => cs

theorem length_dropLineBreak_le (cs : List Char) : (dropLineBreak cs).length ≤ cs.length := by
  unfold dropLineBreak
  split <;> simp <;> omega

/-- What a backslash takes with it in a raw string: a quote or another backslash, and a line break. -/
def rawEscape (mark : Char) : List Char → List Char
  | c :: cs => if c = mark ∨ c = '\\' then dropLineBreak cs else dropLineBreak (c :: cs)
  | [] => []

theorem length_rawEscape_le (mark : Char) (cs : List Char) :
    (rawEscape mark cs).length ≤ cs.length := by
  unfold rawEscape
  split
  · next c cs =>
    split
    · exact Nat.le_succ_of_le (length_dropLineBreak_le cs)
    · exact length_dropLineBreak_le (c :: cs)
  · exact Nat.le_refl _

/-- Where the text of a string stops: at its end, or at a hole. -/
inductive Stop where
  | closed (rest : List Char)
  | hole (rest : List Char)

/-- Runs through the text of a string. `begun` says whether plain text came just before; a line break in
a string of one quote may only come where none did. -/
def content (q : Quote) (begun : Bool) : List Char → Option Stop
  | [] => none
  | c :: cs =>
    if c = '\x00' then none
    else if q.format ∧ (c = '\x7b' ∨ c = '\x7d') then
      match cs with
      | d :: rest =>
        if d = c then content q false rest
        else if c = '\x7b' then some (.hole (d :: rest))
        else none
      | [] => if c = '\x7b' then some (.hole []) else none
    else if c = '\\' then
      if q.raw then content q begun (rawEscape q.mark cs)
      else if q.bytes && ['N', 'u', 'U'].contains (cs.headD ' ') then content q true (cs.drop 2)
      else content q false (cs.drop (escapeLength cs))
    else if c = q.mark then
      if !q.triple then some (.closed cs)
      else match cs with
        | d :: e :: rest =>
          if d = c then
            if e = c then some (.closed rest) else content q false (e :: rest)
          else content q false (d :: e :: rest)
        | rest => content q false rest
    else if c = '\n' ∧ begun ∧ !q.triple then none
    else content q true cs
termination_by cs => cs.length
decreasing_by
  all_goals simp only [List.length_drop, List.length_cons]
  all_goals try omega
  have := length_rawEscape_le q.mark cs
  omega

end Sideload.Surface
