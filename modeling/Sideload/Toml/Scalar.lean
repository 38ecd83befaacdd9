import Sideload.Data.Value
import Sideload.Time.Date

/-!
Reading strings, numbers, dates and times of TOML.

Each reader takes what it reads from the front and gives back the rest; nothing means that the text is
wrong.
-/

namespace Sideload.Toml

def isBlank (c : Char) : Bool := c = ' ' || c = '\t'

def skipBlanks (cs : List Char) : List Char := cs.dropWhile isBlank

/-- Whether a character may stand in a comment, and in a string if it is not part of its syntax. -/
def isPlain (c : Char) : Bool := c = '\t' || (0x20 ≤ c.toNat && c.toNat ≠ 0x7F)

/-- Takes a line break if there is one. -/
def newline? : List Char → Option (List Char)
  | '\n' :: cs => some cs
  | '\r' :: '\n' :: cs => some cs
  | _ => none

/-! ### Strings -/

def hexDigit? (c : Char) : Option Nat :=
  if c.isDigit then some (c.toNat - 48)
  else if 'a' ≤ c ∧ c ≤ 'f' then some (c.toNat - 87)
  else if 'A' ≤ c ∧ c ≤ 'F' then some (c.toNat - 55)
  else none

/-- The character whose number is written in exactly `n` hexadecimal digits. -/
def hexChar? (n : Nat) (cs : List Char) : Option Char := do
  let ds ← (cs.take n).mapM hexDigit?
  let value := ds.foldl (fun v d => v * 16 + d) 0
  if ds.length = n ∧ value.isValidChar then some (Char.ofNat value) else none

/-- What an escape stands for, and how many characters it takes after the backslash. -/
def escape? : List Char → Option (Char × Nat)
  | 'b' :: _ => some ('\x08', 1)
  | 't' :: _ => some ('\t', 1)
  | 'n' :: _ => some ('\n', 1)
  | 'f' :: _ => some ('\x0c', 1)
  | 'r' :: _ => some ('\r', 1)
  | '"' :: _ => some ('"', 1)
  | '\\' :: _ => some ('\\', 1)
  | 'u' :: cs => (hexChar? 4 cs).map (·, 5)
  | 'U' :: cs => (hexChar? 8 cs).map (·, 9)
  | _ => none

/-- Reads a string after its opening quote. -/
def readBasic (acc : List Char) : List Char → Option (String × List Char)
  | [] => none
  | '"' :: cs => some (String.ofList acc.reverse, cs)
  | '\\' :: cs => match escape? cs with
    | none => none
    | some (c, n) => readBasic (c :: acc) (cs.drop n)
  | c :: cs => if isPlain c then readBasic (c :: acc) cs else none
termination_by cs => cs.length
decreasing_by all_goals simp only [List.length_drop, List.length_cons]; omega

def readLiteral (acc : List Char) : List Char → Option (String × List Char)
  | [] => none
  | '\'' :: cs => some (String.ofList acc.reverse, cs)
  | c :: cs => if isPlain c then readLiteral (c :: acc) cs else none

/-- How many of the quotes after three closing ones still belong to the string: at most two. -/
def closingExtra (quote : Char) : List Char → Nat
  | c :: d :: _ => if c = quote then (if d = quote then 2 else 1) else 0
  | [c] => if c = quote then 1 else 0
  | [] => 0

/-- Ends a string of three quotes. -/
def close (quote : Char) (acc cs : List Char) : String × List Char :=
  let n := closingExtra quote cs
  (String.ofList (acc.reverse ++ List.replicate n quote), cs.drop n)

/-- Blanks and line breaks at the front left out. -/
def skipSpace : List Char → List Char
  | '\n' :: cs => skipSpace cs
  | '\r' :: '\n' :: cs => skipSpace cs
  | c :: cs => if isBlank c then skipSpace cs else c :: cs
  | [] => []

theorem length_skipSpace_le (cs : List Char) : (skipSpace cs).length ≤ cs.length := by
  fun_induction skipSpace cs <;> simp_all <;> omega

/-- A backslash at the end of a line takes the line break and all blanks after it. -/
def continuation? (cs : List Char) : Option (List Char) :=
  match newline? (skipBlanks cs) with
  | some _ => some (skipSpace cs)
  | none => none

theorem length_of_continuation? {cs rest : List Char} (h : continuation? cs = some rest) :
    rest.length ≤ cs.length := by
  unfold continuation? at h
  split at h
  · cases h; exact length_skipSpace_le cs
  · cases h

/-- Reads a string after three opening quotes. -/
def readMultiBasic (acc : List Char) : List Char → Option (String × List Char)
  | [] => none
  | '"' :: '"' :: '"' :: cs => some (close '"' acc cs)
  | '\\' :: cs =>
    match _h : continuation? cs with
    | some rest => readMultiBasic acc rest
    | none => match escape? cs with
      | none => none
      | some (c, n) => readMultiBasic (c :: acc) (cs.drop n)
  | '\n' :: cs => readMultiBasic ('\n' :: acc) cs
  | '\r' :: '\n' :: cs => readMultiBasic ('\n' :: acc) cs
  | c :: cs => if isPlain c then readMultiBasic (c :: acc) cs else none
termination_by cs => cs.length
decreasing_by
  · have := length_of_continuation? _h
    simp only [List.length_cons]; omega
  all_goals simp only [List.length_drop, List.length_cons]; omega

def readMultiLiteral (acc : List Char) : List Char → Option (String × List Char)
  | [] => none
  | '\'' :: '\'' :: '\'' :: cs => some (close '\'' acc cs)
  | '\n' :: cs => readMultiLiteral ('\n' :: acc) cs
  | '\r' :: '\n' :: cs => readMultiLiteral ('\n' :: acc) cs
  | c :: cs => if isPlain c then readMultiLiteral (c :: acc) cs else none

/-- A line break just after three opening quotes does not count. -/
def afterOpening (cs : List Char) : List Char := (newline? cs).getD cs

/-- Reads a string of any form. -/
def readAnyString : List Char → Option (String × List Char)
  | '"' :: '"' :: '"' :: cs => readMultiBasic [] (afterOpening cs)
  | '"' :: cs => readBasic [] cs
  | '\'' :: '\'' :: '\'' :: cs => readMultiLiteral [] (afterOpening cs)
  | '\'' :: cs => readLiteral [] cs
  | _ => none

/-! ### Numbers -/

/-- Digits of a kind with single underscores between them; gives the digits. -/
def readRun (isDigit : Char → Bool) (acc : List Char) : List Char → Option (List Char × List Char)
  | '_' :: c :: cs => if isDigit c then readRun isDigit (c :: acc) cs else none
  | ['_'] => none
  | c :: cs => if isDigit c then readRun isDigit (c :: acc) cs else some (acc.reverse, c :: cs)
  | [] => some (acc.reverse, [])

/-- Like `readRun`, with at least one digit. -/
def readRun1 (isDigit : Char → Bool) : List Char → Option (List Char × List Char)
  | c :: cs => if isDigit c then readRun isDigit [c] cs else none
  | [] => none

/-- A decimal number of which the first digit is zero only if it is the only one. -/
def readWhole : List Char → Option (List Char × List Char)
  | '0' :: cs => some (['0'], cs)
  | cs => readRun1 Char.isDigit cs

def digitsValue (base : Nat) (cs : List Char) : Nat :=
  cs.foldl (fun v c => v * base + (hexDigit? c).getD 0) 0

/-- Whether `m` times ten to the power of `e` is nearer to infinity than to any finite number of double
precision. -/
def exceedsDouble (m : Nat) (e : Int) : Bool :=
  let bound := Nat.pow 2 1024 - Nat.pow 2 970
  let magnitude := (Nat.toDigits 10 m).length + e
  if m = 0 then false
  else if 310 < magnitude then true
  else if magnitude < 300 then false
  else if 0 ≤ e then bound ≤ m * Nat.pow 10 e.toNat
  else bound * Nat.pow 10 (-e).toNat ≤ m

/-- What follows a point. -/
def readFraction? : List Char → Option (Option (List Char) × List Char)
  | '.' :: cs => do
    let (ds, cs) ← readRun1 Char.isDigit cs
    some (some ds, cs)
  | cs => some (none, cs)

def readExponent? : List Char → Option (Option Int × List Char)
  | c :: cs =>
    if c = 'e' ∨ c = 'E' then
      match cs with
      | '-' :: cs => do
        let (ds, cs) ← readRun1 Char.isDigit cs
        some (some (-(digitsValue 10 ds : Int)), cs)
      | '+' :: cs => do
        let (ds, cs) ← readRun1 Char.isDigit cs
        some (some (digitsValue 10 ds : Int), cs)
      | cs => do
        let (ds, cs) ← readRun1 Char.isDigit cs
        some (some (digitsValue 10 ds : Int), cs)
    else some (none, c :: cs)
  | [] => some (none, [])

/-- The least and the greatest whole number. -/
def leastInteger : Int := -9223372036854775808

def greatestInteger : Int := 9223372036854775807

/-- A decimal number after its sign. -/
def readDecimal (negative : Bool) (cs : List Char) : Option (Data × List Char) := do
  let (whole, cs) ← readWhole cs
  let (fraction?, cs) ← readFraction? cs
  let (exponent?, cs) ← readExponent? cs
  match fraction?, exponent? with
  | none, none =>
    let n : Int := digitsValue 10 whole
    let n := if negative then -n else n
    if leastInteger ≤ n ∧ n ≤ greatestInteger then some (.number (toString n), cs) else none
  | _, _ =>
    let fraction := fraction?.getD []
    let e := exponent?.getD 0
    let m := digitsValue 10 (whole ++ fraction)
    if !negative && exceedsDouble m (e - fraction.length) then none
    else
      let sign := if negative then ['-'] else []
      some (.number (String.ofList (sign ++ whole ++ '.' :: fraction ++ 'e' :: (toString e).toList)), cs)

/-- A whole number in another base after its mark. -/
def readBased (base : Nat) (isDigit : Char → Bool) (cs : List Char) : Option (Data × List Char) := do
  let (ds, cs) ← readRun1 isDigit cs
  let n := digitsValue base ds
  if (n : Int) ≤ greatestInteger then some (.number (toString n), cs) else none

def readWord (word : String) (d : Data) (cs : List Char) : Option (Data × List Char) :=
  if word.toList.isPrefixOf cs then some (d, cs.drop word.length) else none

/-- A number, also one that is infinite or undefined. -/
def readNumber : List Char → Option (Data × List Char)
  | '0' :: 'x' :: cs => readBased 16 (fun c => (hexDigit? c).isSome) cs
  | '0' :: 'o' :: cs => readBased 8 (fun c => '0' ≤ c && c ≤ '7') cs
  | '0' :: 'b' :: cs => readBased 2 (fun c => c = '0' || c = '1') cs
  | cs =>
    let (negative, rest) := match cs with
      | '+' :: rest => (false, rest)
      | '-' :: rest => (true, rest)
      | rest => (false, rest)
    match rest with
    | 'i' :: _ => readWord "inf" (.number "inf") rest
    | 'n' :: _ => readWord "nan" (.number "nan") rest
    | _ => readDecimal negative rest

/-! ### Dates and times -/

def twoDigits? : List Char → Option (Nat × List Char)
  | a :: b :: cs => if a.isDigit && b.isDigit then some (digitsValue 10 [a, b], cs) else none
  | _ => none

/-- Whether the text begins as a date does. -/
def startsDate : List Char → Bool
  | a :: b :: c :: d :: '-' :: _ => a.isDigit && b.isDigit && c.isDigit && d.isDigit
  | _ => false

/-- Whether the text begins as a time does. -/
def startsTime (cs : List Char) : Bool :=
  match twoDigits? cs with
  | some (h, ':' :: _) => h ≤ 23
  | _ => false

def readDate (cs : List Char) : Option (List Char) := do
  let year := digitsValue 10 (cs.take 4)
  let (month, cs) ← twoDigits? (cs.drop 5)
  match cs with
  | '-' :: cs => do
    let (day, cs) ← twoDigits? cs
    if isDate year month day then some cs else none
  | _ => none

def readTime (cs : List Char) : Option (List Char) := do
  let (_, cs) ← twoDigits? cs
  let (minute, cs) ← twoDigits? (cs.drop 1)
  match cs with
  | ':' :: cs => do
    let (second, cs) ← twoDigits? cs
    if minute ≤ 59 ∧ second ≤ 60 then
      match cs with
      | '.' :: c :: rest => if c.isDigit then some (rest.dropWhile Char.isDigit) else some cs
      | cs => some cs
    else none
  | _ => none

/-- An offset from universal time, if there is one. -/
def readOffset? : List Char → Option (List Char)
  | c :: cs =>
    if c = 'Z' ∨ c = 'z' then some cs
    else if c = '+' ∨ c = '-' then do
      let (hours, cs) ← twoDigits? cs
      match cs with
      | ':' :: cs => do
        let (minutes, cs) ← twoDigits? cs
        if hours ≤ 23 ∧ minutes ≤ 59 then some cs else none
      | _ => none
    else some (c :: cs)
  | [] => some []

/-- What follows a date: a time with an optional offset, or nothing. -/
def readAfterDate : List Char → Option (List Char)
  | c :: cs =>
    if (c = 'T' ∨ c = 't' ∨ c = ' ') ∧ startsTime cs then do readOffset? (← readTime cs)
    else some (c :: cs)
  | [] => some []

/-- A date, a time, both, or a number. -/
def readMomentOrNumber (cs : List Char) : Option (Data × List Char) :=
  let upTo (rest : List Char) : Data × List Char :=
    (.moment (String.ofList (cs.take (cs.length - rest.length))), rest)
  if startsDate cs then do
    let rest ← readAfterDate (← readDate cs)
    some (upTo rest)
  else if startsTime cs then do
    let rest ← readTime cs
    some (upTo rest)
  else readNumber cs

end Sideload.Toml
