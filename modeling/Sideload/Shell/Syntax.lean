/-!
Shell scripts as lists of commands.

Scripts are read byte by byte, and a byte is represented by the character of the same number. A script is
a list of simple commands; a command is a list of words and redirections, and says how it depends on the
command before it.
-/

namespace Sideload.Shell

/-- Part of a word: text as it is, or a parameter to be replaced by its value. -/
inductive Piece where
  | text (cs : List Char) (quoted : Bool)
  | param (name : List Char) (quoted : Bool)
  deriving DecidableEq

abbrev Word := List Piece

/-- Where a redirected stream goes. -/
inductive Sink where
  | stream (fd : Char)
  | file (append : Bool) (path : Word)
  deriving DecidableEq

/-- When a command runs: always, or only if the one before it succeeded or failed. -/
inductive Link where
  | always
  | ifOk
  | ifFailed
  deriving DecidableEq

structure Command where
  link : Link
  line : Nat
  words : List Word
  redirects : List (Char × Sink)
  deriving DecidableEq

/-! ### Words -/

def isBlank (c : Char) : Bool := c = ' ' || c = '\t'

/-- Characters that end a word. -/
def isBreak (c : Char) : Bool :=
  isBlank c || c = '\n' || c = ';' || c = '&' || c = '|' || c = '<' || c = '>'

def isNameStart (c : Char) : Bool := c = '_' || c.isAlpha

def isNameChar (c : Char) : Bool := c = '_' || c.isAlphanum

/-- The parameter that follows a dollar sign: its name, and how many characters it takes. -/
def param? : List Char → Option (List Char × Nat)
  | '\x7b' :: cs =>
    let name := cs.takeWhile (· ≠ '\x7d')
    if name.isEmpty || name.length = cs.length then none else some (name, name.length + 2)
  | c :: cs =>
    if isNameStart c then
      let name := c :: cs.takeWhile isNameChar
      some (name, name.length)
    else if c.isDigit || ['#', '@', '*', '$', '?', '!'].contains c then some ([c], 1)
    else none
  | [] => none

/-- The characters that a backslash escapes between double quotes. -/
def escapesInQuotes (c : Char) : Bool := c = '$' || c = '"' || c = '\\' || c.toNat = 0x60

mutual

/-- Reads a word up to the character that ends it. -/
def readWord (fuel : Nat) (acc : Word) (cs : List Char) : Option (Word × List Char) :=
  match fuel with
  | 0 => none
  | fuel + 1 =>
    match cs with
    | [] => some (acc.reverse, [])
    | '\'' :: rest =>
      let text := rest.takeWhile (· ≠ '\'')
      if text.length = rest.length then none
      else readWord fuel (.text text true :: acc) (rest.drop (text.length + 1))
    | '"' :: rest => readQuoted fuel (.text [] true :: acc) rest
    | '\\' :: '\n' :: rest => readWord fuel acc rest
    | '\\' :: c :: rest => readWord fuel (.text [c] true :: acc) rest
    | '$' :: rest => match param? rest with
      | some (name, n) => readWord fuel (.param name false :: acc) (rest.drop n)
      | none => readWord fuel (.text ['$'] false :: acc) rest
    | c :: rest =>
      if isBreak c then some (acc.reverse, c :: rest)
      else readWord fuel (.text [c] false :: acc) rest

/-- Reads text between double quotes and then the rest of the word. -/
def readQuoted (fuel : Nat) (acc : Word) (cs : List Char) : Option (Word × List Char) :=
  match fuel with
  | 0 => none
  | fuel + 1 =>
    match cs with
    | [] => none
    | '"' :: rest => readWord fuel acc rest
    | '\\' :: '\n' :: rest => readQuoted fuel acc rest
    | '\\' :: c :: rest =>
      readQuoted fuel (.text (if escapesInQuotes c then [c] else ['\\', c]) true :: acc) rest
    | '$' :: rest => match param? rest with
      | some (name, n) => readQuoted fuel (.param name true :: acc) (rest.drop n)
      | none => readQuoted fuel (.text ['$'] true :: acc) rest
    | c :: rest => readQuoted fuel (.text [c] true :: acc) rest

end

/-! ### Tokens -/

inductive Token where
  | word (w : Word)
  | redirect (fd : Char) (sink : Sink)
  | separator (link : Link)
  | newline
  deriving DecidableEq

/-- Reads the target of a redirection. -/
def readSink (append : Bool) (cs : List Char) : Option (Sink × List Char) :=
  match cs with
  | '&' :: c :: rest => if c.isDigit then some (.stream c, rest) else none
  | cs => do
    let (w, rest) ← readWord (cs.length + 1) [] (cs.dropWhile isBlank)
    if w.isEmpty then none else some (.file append w, rest)

/-- Reads a redirection after its arrow. -/
def readRedirect (fd : Char) (cs : List Char) : Option (Token × List Char) :=
  let (append, cs) := match cs with
    | '>' :: rest => (true, rest)
    | cs => (false, cs)
  (readSink append cs).map fun (sink, rest) => (.redirect fd sink, rest)

/-- Reads one token; there are no blanks in front of it. -/
def readToken : List Char → Option (Token × List Char)
  | '\n' :: rest => some (.newline, rest)
  | '#' :: rest => some (.newline, (rest.dropWhile (· ≠ '\n')).drop 1)
  | ';' :: rest => some (.separator .always, rest)
  | '&' :: '&' :: rest => some (.separator .ifOk, rest)
  | '|' :: '|' :: rest => some (.separator .ifFailed, rest)
  | '>' :: rest => readRedirect '1' rest
  | '1' :: '>' :: rest => readRedirect '1' rest
  | '2' :: '>' :: rest => readRedirect '2' rest
  | cs => do
    let (w, rest) ← readWord (cs.length + 1) [] cs
    if w.isEmpty then none else some (.word w, rest)

def readTokens : (fuel : Nat) → List Char → Option (List Token)
  | 0, _ => none
  | fuel + 1, cs =>
    match cs.dropWhile isBlank with
    | [] => some []
    | cs => do
      let (t, rest) ← readToken cs
      some (t :: (← readTokens fuel rest))

/-! ### Commands -/

/-- Commands so far, the last first, and the one that is being read. -/
structure Draft where
  done : List Command
  current : Command

namespace Draft

/-- Ends the present command; one without words and redirections is none. -/
def finish (d : Draft) : List Command :=
  if d.current.words.isEmpty && d.current.redirects.isEmpty then d.done else d.current :: d.done

def add (d : Draft) : Token → Draft
  | .word w => { d with current := { d.current with words := d.current.words ++ [w] } }
  | .redirect fd sink =>
    { d with current := { d.current with redirects := d.current.redirects ++ [(fd, sink)] } }
  | .separator link => ⟨d.finish, ⟨link, d.current.line, [], []⟩⟩
  | .newline =>
    if d.current.words.isEmpty && d.current.redirects.isEmpty then
      { d with current := { d.current with line := d.current.line + 1 } }
    else ⟨d.finish, ⟨.always, d.current.line + 1, [], []⟩⟩

end Draft

/-- The commands of a script. -/
def parse? (cs : List Char) : Option (List Command) := do
  let tokens ← readTokens (cs.length + 1) cs
  some ((tokens.foldl Draft.add ⟨[], ⟨.always, 1, [], []⟩⟩).finish.reverse)

end Sideload.Shell
