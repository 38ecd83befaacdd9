import Sideload.Log.Record
import Sideload.Text.Blank
import Sideload.Text.Letter

/-!
Filters: which log records are let through.

A filter is a list of rules. The rule with the longest target that a record's topic begins with decides; of
rules that are equally exact the last one decides. A record that no rule selects is not let through.
-/

namespace Sideload.Log

/-- A rule of a filter. -/
structure Rule where
  /-- What the label of a topic has to begin with. -/
  target : Option String
  /-- The parts that a record has to have. -/
  parts : List String
  /-- Records up to this verbosity are let through. -/
  verbosity : Nat
  deriving DecidableEq

abbrev Filter := List Rule

/-- The only part that records have: their text. -/
def textPart : String := "message"

namespace Rule

/-- All records up to a level, from the topics that begin with `target`. -/
def upTo (target : String) (level : Level) : Rule := ⟨some target, [], level.verbosity⟩

def selects (r : Rule) (topic : Topic) : Bool :=
  (match r.target with
    | some t => t.toList.isPrefixOf topic.label.toList
    | none => true) &&
  r.parts.all (· = textPart)

/-- How exact a rule is: the length of its target first, then the number of its parts. -/
def rank (r : Rule) : Nat × Nat :=
  (match r.target with
    | some t => t.utf8ByteSize + 1
    | none => 0,
   r.parts.length)

/-- Whether `r` is at least as exact as `s`. -/
def outranks (r s : Rule) : Bool :=
  s.rank.1 < r.rank.1 || (s.rank.1 = r.rank.1 && s.rank.2 ≤ r.rank.2)

end Rule

namespace Filter

/-- The rule that decides about a topic. -/
def deciding? (f : Filter) (topic : Topic) : Option Rule :=
  (f.filter (·.selects topic)).foldl (fun best r =>
    match best with
    | some b => if r.outranks b then some r else some b
    | none => some r) none

/-- Whether a record is let through. -/
def allows (f : Filter) (r : Record) : Bool :=
  match deciding? f r.topic with
  | some rule => r.level.verbosity ≤ rule.verbosity
  | none => false

/-! ### Text

A filter is written as rules with commas between them. A rule is a level, a target, or a target and a level
with an equals sign between them. After the target there can be brackets with the name of a span and, in
braces, of a part; rules for spans select no records. -/

def mostVerbose : Nat := Level.trace.verbosity

/-- The verbosity that a word stands for: the name of a level in any case, or its number. -/
def verbosity? (word : String) : Option Nat :=
  let digits := if word.startsWith "+" then word.toList.drop 1 else word.toList
  if !digits.isEmpty && digits.all Char.isDigit then
    let n := digits.foldl (fun n c => n * 10 + (c.toNat - 48)) 0
    if n ≤ mostVerbose then some n else none
  else if lowerAscii word = "off" then some 0
  else (Level.all.find? fun l => lowerAscii l.label = lowerAscii word).map Level.verbosity

/-- The verbosity after an equals sign; nothing stands for the most verbose. -/
def levelPart? (word : String) : Option Nat := if word.isEmpty then some mostVerbose else verbosity? word

/-- A rule as it is written. -/
structure Written where
  rule : Rule
  /-- Whether the rule is for spans only. -/
  forSpans : Bool
  deriving DecidableEq

def isRuleStart (c : Char) : Bool := ['-', ':', '_'].contains c || isAlphanumeric c

/-- Some characters of a text as a string. -/
def slice (text : List Char) (start stop : Nat) : String := String.ofList ((text.take stop).drop start)

/-- The rest of a rule from the closing bracket on, which stands at `at_`. -/
def afterBracket? (text rest : List Char) (at_ : Nat) : Option Nat :=
  match rest with
  | [] => some mostVerbose
  | '=' :: _ => levelPart? (slice text (at_ + 2) text.length)
  | _ => none

/-- The rest of a rule from its opening bracket on, which stands at `at_`; `rest` is what follows it. -/
def brackets? (text : List Char) (target : Option String) (rest : List Char) (at_ : Nat) : Option Written :=
  let (name, rest) := rest.span fun c => c ≠ ']' && c ≠ '\x7b'
  let after := at_ + 1 + name.length
  match rest with
  | ']' :: rest => (afterBracket? text rest after).map fun v => ⟨⟨target, [], v⟩, true⟩
  | '\x7b' :: rest =>
    let (part, rest) := rest.span (· ≠ '\x7d')
    let close := after + 1 + part.length
    match rest with
    | '\x7d' :: ']' :: rest =>
      if part.isEmpty then none
      else (afterBracket? text rest (close + 1)).map fun v =>
        let shown := (slice text (after + 1) close).toList
        let key := String.ofList (shown.takeWhile (· ≠ '='))
        ⟨⟨target, [key], v⟩, !name.isEmpty || shown.contains '='⟩
    | _ => none
  | _ => none

/-- Reads one rule. White space around it does not count for where its parts begin, but the parts are
taken from the text as it is; so a rule with white space before it selects nothing that is meant. -/
def rule? (s : String) : Option Written :=
  let text := s.toList
  match trim text with
  | [] => none
  | c :: cs =>
    if c = '[' then brackets? text none cs 0
    else if !isRuleStart c then none
    else
      let (word, rest) := (c :: cs).span fun c => c ≠ '=' && c ≠ '['
      let target := some (slice text 0 word.length)
      match rest with
      | '=' :: _ =>
        (levelPart? (slice text (word.length + 1) text.length)).map fun v => ⟨⟨target, [], v⟩, false⟩
      | '[' :: rest => brackets? text target rest word.length
      | _ => match verbosity? s with
        | some v => some ⟨⟨none, [], v⟩, false⟩
        | none => some ⟨⟨some s, [], mostVerbose⟩, false⟩

/-- Reads a filter. Without any rule, errors are let through. -/
def ofText? (s : String) : Option Filter := do
  let written ← ((s.splitOn ",").filter (· ≠ "")).mapM rule?
  if written.isEmpty then return [⟨none, [], Level.error.verbosity⟩]
  return (written.filter (!·.forSpans)).map (·.rule)

end Filter

end Sideload.Log
