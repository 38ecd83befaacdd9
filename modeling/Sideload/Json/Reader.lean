import Sideload.Data.Value

/-!
Reading JSON.

A text is a single value with blanks around it. A string may hold escapes of half a pair only where
nobody asks for it: such a string, and a record with such a name, is a value that cannot be read but can
be passed over.
-/

namespace Sideload.Json

def isBlank (c : Char) : Bool := c = ' ' || c = '\t' || c = '\n' || c = '\r'

def skipBlanks (cs : List Char) : List Char := cs.dropWhile isBlank

def hexDigit? (c : Char) : Option Nat :=
  if c.isDigit then some (c.toNat - 48)
  else if 'a' ≤ c ∧ c ≤ 'f' then some (c.toNat - 87)
  else if 'A' ≤ c ∧ c ≤ 'F' then some (c.toNat - 55)
  else none

def hexValue? (a b c d : Char) : Option Nat := do
  some (((← hexDigit? a) * 16 + (← hexDigit? b)) * 256 + (← hexDigit? c) * 16 + (← hexDigit? d))

def isHigh (n : Nat) : Bool := 0xD800 ≤ n && n < 0xDC00

def isLow (n : Nat) : Bool := 0xDC00 ≤ n && n < 0xE000

/-- The character that a pair of escapes names. -/
def pairChar (high low : Nat) : Char := Char.ofNat (0x10000 + (high - 0xD800) * 0x400 + (low - 0xDC00))

def shortEscape? (c : Char) : Option Char :=
  match c with
  | '"' => some '"'
  | '\\' => some '\\'
  | '/' => some '/'
  | 'b' => some '\x08'
  | 'f' => some '\x0c'
  | 'n' => some '\n'
  | 'r' => some '\r'
  | 't' => some '\t'
  | _ => none

/-- Reads a string after its first quote. `acc` holds its characters so far, the last first, or nothing if
it cannot be read. -/
def readString : (acc : Option (List Char)) → List Char → Option (Option String × List Char)
  | _, [] => none
  | acc, '"' :: rest => some (acc.map fun cs => String.ofList cs.reverse, rest)
  | acc, '\\' :: 'u' :: a :: b :: c :: d :: rest =>
    match hexValue? a b c d with
    | none => none
    | some n =>
      if isLow n then readString none rest
      else if !isHigh n then readString (acc.map (Char.ofNat n :: ·)) rest
      else match rest with
        | '\\' :: 'u' :: e :: f :: g :: h :: rest' =>
          match hexValue? e f g h with
          | none => none
          | some m =>
            if isLow m then readString (acc.map (pairChar n m :: ·)) rest'
            else readString none ('\\' :: 'u' :: e :: f :: g :: h :: rest')
        | rest => readString none rest
  | acc, '\\' :: c :: rest => match shortEscape? c with
    | none => none
    | some e => readString (acc.map (e :: ·)) rest
  | acc, c :: rest => if c.toNat < 0x20 then none else readString (acc.map (c :: ·)) rest
termination_by _ cs => cs.length

/-- Digits at the front, at least one. -/
def readDigits (cs : List Char) : Option (List Char × List Char) :=
  match cs.takeWhile Char.isDigit with
  | [] => none
  | ds => some (ds, cs.dropWhile Char.isDigit)

/-- Digits of which the first is zero only if it is alone. -/
def readWhole : List Char → Option (List Char × List Char)
  | '0' :: rest => if (rest.head?.map Char.isDigit).getD false then none else some (['0'], rest)
  | cs => readDigits cs

def readFraction : List Char → Option (List Char × List Char)
  | '.' :: rest => do
    let (ds, rest) ← readDigits rest
    some ('.' :: ds, rest)
  | cs => some ([], cs)

def readExponent : List Char → Option (List Char × List Char)
  | c :: rest =>
    if c = 'e' ∨ c = 'E' then
      match rest with
      | s :: rest' =>
        if s = '+' ∨ s = '-' then do
          let (ds, rest) ← readDigits rest'
          some (c :: s :: ds, rest)
        else do
          let (ds, rest) ← readDigits rest
          some (c :: ds, rest)
      | [] => none
    else some ([], c :: rest)
  | [] => some ([], [])

def readNumber (cs : List Char) : Option (Data × List Char) := do
  let (sign, cs) := match cs with
    | '-' :: rest => (['-'], rest)
    | cs => ([], cs)
  let (whole, cs) ← readWhole cs
  let (fraction, cs) ← readFraction cs
  let (exponent, cs) ← readExponent cs
  some (.number (String.ofList (sign ++ whole ++ fraction ++ exponent)), cs)

/-- A word at the front. -/
def readWord (word : String) (d : Data) (cs : List Char) : Option (Data × List Char) :=
  if word.toList.isPrefixOf cs then some (d, cs.drop word.length) else none

mutual

/-- Reads a value after any blanks. `fuel` bounds the values in the text; its length is enough. -/
def readValue : (fuel : Nat) → List Char → Option (Data × List Char)
  | 0, _ => none
  | fuel + 1, cs =>
    match skipBlanks cs with
    | '"' :: rest => do
      let (s?, rest) ← readString (some []) rest
      some ((s?.map Data.string).getD .unreadable, rest)
    | '[' :: rest =>
      match skipBlanks rest with
      | ']' :: rest => some (.list [], rest)
      | rest => do
        let (items, rest) ← readItems fuel rest
        some (.list items, rest)
    | '\x7b' :: rest =>
      match skipBlanks rest with
      | '\x7d' :: rest => some (.record [], rest)
      | rest => do
        let (members?, rest) ← readMembers fuel rest
        some ((members?.map Data.record).getD .unreadable, rest)
    | 't' :: rest => readWord "true" (.bool true) ('t' :: rest)
    | 'f' :: rest => readWord "false" (.bool false) ('f' :: rest)
    | 'n' :: rest => readWord "null" .null ('n' :: rest)
    | cs => readNumber cs

/-- Reads the items of a list up to its closing bracket. -/
def readItems : (fuel : Nat) → List Char → Option (List Data × List Char)
  | 0, _ => none
  | fuel + 1, cs => do
    let (d, rest) ← readValue fuel cs
    match skipBlanks rest with
    | ']' :: rest => some ([d], rest)
    | ',' :: rest => do
      let (ds, rest) ← readItems fuel rest
      some (d :: ds, rest)
    | _ => none

/-- Reads the members of a record up to its closing brace; nothing if a name cannot be read. -/
def readMembers : (fuel : Nat) → List Char → Option (Option (List (String × Data)) × List Char)
  | 0, _ => none
  | fuel + 1, cs =>
    match skipBlanks cs with
    | '"' :: rest => do
      let (name?, rest) ← readString (some []) rest
      match skipBlanks rest with
      | ':' :: rest => do
        let (d, rest) ← readValue fuel rest
        match skipBlanks rest with
        | '\x7d' :: rest => some (name?.map fun name => [(name, d)], rest)
        | ',' :: rest => do
          let (ms?, rest) ← readMembers fuel rest
          some (do some ((← name?, d) :: (← ms?)), rest)
        | _ => none
      | _ => none
    | _ => none

end

/-- The value of a JSON text. -/
def ofText? (s : String) : Option Data := do
  let cs := s.toList
  let (d, rest) ← readValue (cs.length + 1) cs
  if (skipBlanks rest).isEmpty then some d else none

end Sideload.Json
