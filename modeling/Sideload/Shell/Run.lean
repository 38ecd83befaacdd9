import Sideload.Disk.Change
import Sideload.Failure
import Sideload.Shell.Syntax

/-!
Running shell scripts.

The commands are those that print, those that end the script, tests of conditions, and a few that do
nothing. Input is empty. A script cannot see anything but its arguments, its variables and the disk.
-/

namespace Sideload.Shell

/-- Text as bytes, each represented by a character. -/
def bytesOf (s : String) : List Char := s.toUTF8.toList.map fun b => Char.ofNat b.toNat

def toBytes (cs : List Char) : ByteArray := ⟨(cs.map fun c => UInt8.ofNat c.toNat).toArray⟩

/-- What runs a script and what it has done so far. -/
structure State where
  disk : Disk
  /-- The name of the script, then its arguments. -/
  args : List (List Char)
  bindings : List (List Char × List Char)
  status : Nat
  out : List Char
  err : List Char

/-- The process number of the script. -/
def processId : List Char := ['4', '2', '4', '2']

def natText (n : Nat) : List Char := Nat.toDigits 10 n

def readNat? (cs : List Char) : Option Nat :=
  if cs.isEmpty || !cs.all Char.isDigit then none
  else some (cs.foldl (fun n c => n * 10 + (c.toNat - 48)) 0)

namespace State

def param (s : State) (name : List Char) : List Char :=
  match name with
  | ['#'] => natText (s.args.length - 1)
  | ['$'] => processId
  | ['?'] => natText s.status
  | ['!'] => []
  | ['@'] => (s.args.drop 1).intersperse [' '] |>.flatten
  | ['*'] => (s.args.drop 1).intersperse [' '] |>.flatten
  | name => match readNat? name with
    | some n => (s.args[n]?).getD []
    | none => (s.bindings.lookup name).getD []

end State

/-! ### Words -/

def isSplit (c : Char) : Bool := c = ' ' || c = '\t' || c = '\n'

/-- Fields so far, the last first, and the field that is being made, if one has begun. -/
structure Fields where
  done : List (List Char)
  current : Option (List Char)

namespace Fields

def push (f : Fields) (cs : List Char) : Fields := { f with current := some ((f.current.getD []) ++ cs) }

/-- Adds a value that is cut at blanks. -/
def pushSplit (f : Fields) (cs : List Char) : Fields :=
  cs.foldl (fun f c =>
    if isSplit c then match f.current with
      | some w => ⟨w :: f.done, none⟩
      | none => f
    else f.push [c]) f

def finish (f : Fields) : List (List Char) :=
  (match f.current with
  | some w => w :: f.done
  | none => f.done).reverse

end Fields

/-- The fields that a word stands for. -/
def expand (s : State) (w : Word) : List (List Char) :=
  (w.foldl (fun f piece => match piece with
    | .text cs _ => f.push cs
    | .param ['@'] true =>
      match s.args.drop 1 with
      | [] => f
      | a :: rest => rest.foldl (fun f b =>
          ⟨(f.current.getD []) :: f.done, some b⟩) (f.push a)
    | .param name true => f.push (s.param name)
    | .param name false => f.pushSplit (s.param name)) (⟨[], none⟩ : Fields)).finish

/-- A word as one field. -/
def expandOne (s : State) (w : Word) : List Char :=
  w.flatMap fun
    | .text cs _ => cs
    | .param name _ => s.param name

/-! ### Printing -/

def octalDigit? (c : Char) : Option Nat :=
  if '0' ≤ c ∧ c ≤ '7' then some (c.toNat - 48) else none

/-- Up to three octal digits: their value as a byte, and how many there are. -/
def octal (cs : List Char) : Char × Nat :=
  let ds := ((cs.take 3).takeWhile fun c => (octalDigit? c).isSome).map fun c => c.toNat - 48
  (Char.ofNat (ds.foldl (fun n d => n * 8 + d) 0 % 256), ds.length)

def simpleEscape? (c : Char) : Option Char :=
  match c with
  | 'a' => some '\x07'
  | 'b' => some '\x08'
  | 'f' => some '\x0c'
  | 'n' => some '\n'
  | 'r' => some '\r'
  | 't' => some '\t'
  | 'v' => some '\x0b'
  | '\\' => some '\\'
  | _ => none

/-- Replaces escapes in an argument of `echo`. Nothing is printed after `\c`; that it was there is the
second part of the answer. -/
def echoText : List Char → List Char × Bool
  | '\\' :: 'c' :: _ => ([], true)
  | '\\' :: '0' :: rest =>
    let (c, n) := octal rest
    let (cs, stop) := echoText (rest.drop n)
    (c :: cs, stop)
  | '\\' :: c :: rest =>
    let (cs, stop) := echoText rest
    match simpleEscape? c with
    | some e => (e :: cs, stop)
    | none => ('\\' :: c :: cs, stop)
  | c :: rest =>
    let (cs, stop) := echoText rest
    (c :: cs, stop)
  | [] => ([], false)
termination_by cs => cs.length
decreasing_by all_goals simp only [List.length_drop, List.length_cons]; omega

def echo (args : List (List Char)) : List Char :=
  let (newline, args) := match args with
    | ['-', 'n'] :: rest => (false, rest)
    | args => (true, args)
  let (cs, stop) := echoText ((args.intersperse [' ']).flatten)
  if newline && !stop then cs ++ ['\n'] else cs

/-- Prints a format once. Gives the text and the arguments that are left. -/
def printOnce : List Char → List (List Char) → List Char × List (List Char)
  | '\\' :: c :: rest, args =>
    if (octalDigit? c).isSome then
      let (e, n) := octal (c :: rest)
      let (cs, args) := printOnce ((c :: rest).drop (max n 1)) args
      (e :: cs, args)
    else
      let (cs, args) := printOnce rest args
      match simpleEscape? c with
      | some e => (e :: cs, args)
      | none => ('\\' :: c :: cs, args)
  | '%' :: '%' :: rest, args =>
    let (cs, args) := printOnce rest args
    ('%' :: cs, args)
  | '%' :: c :: rest, args =>
    let value := (args.head?).getD (if c = 'd' then ['0'] else [])
    let value := if c = 'b' then (echoText value).1 else value
    let (cs, args) := printOnce rest args.tail
    (value ++ cs, args)
  | c :: rest, args =>
    let (cs, args) := printOnce rest args
    (c :: cs, args)
  | [], args => ([], args)
termination_by cs => cs.length
decreasing_by all_goals simp only [List.length_drop, List.length_cons]; omega

/-- Prints a format again and again until no argument is left. -/
def printAll (format : List Char) : (fuel : Nat) → List (List Char) → List Char
  | 0, _ => []
  | fuel + 1, args =>
    let (cs, rest) := printOnce format args
    if rest.isEmpty || rest.length = args.length then cs else cs ++ printAll format fuel rest

/-! ### Commands -/

/-- What a command leads to: the script goes on, or ends. -/
inductive Effect where
  | goOn (s : State)
  | ends (exit : Exit) (s : State)

/-- The signals that do not end a process. -/
def harmless : List Nat := [0, 17, 18, 19, 20, 21, 22, 23, 28]

/-- The number of a signal that is given by number or by name. -/
def signalNumber? (cs : List Char) : Option Nat :=
  match readNat? cs with
  | some n => some n
  | none =>
    let name := String.ofList cs
    (Exit.signalNames.find? fun (_, s) => s = name || s = "SIG" ++ name).map (·.1)

/-- The signal that `kill` sends to the script itself, if it does. -/
def killSignal? : List (List Char) → Option Nat
  | [['-', 's'], name, pid] => if pid = processId then signalNumber? name else none
  | [('-' :: name), pid] => if pid = processId then signalNumber? name else none
  | [pid] => if pid = processId then some 15 else none
  | _ => none

/-- The files of `cat`, one after the other; of one that is not there only the complaint. -/
def cat (d : Disk) : List (List Char) → List Char × List Char × Nat
  | [] => ([], [], 0)
  | f :: fs =>
    let (out, err, status) := cat d fs
    let name := String.fromUTF8? (toBytes f) |>.getD ""
    match d.readBytes (Path.ofString name) with
    | .ok content => (content.toList.map (fun b => Char.ofNat b.toNat) ++ out, err, status)
    | .error (.os e) =>
      let why := (OsError.words.lookup e.code).getD ""
      (out, bytesOf s!"cat: {name}: {why}\n" ++ err, 1)
    | .error _ => (out, err, 1)

/-- Whether a condition holds; nothing if it is none. -/
def condition? (d : Disk) : List (List Char) → Option Bool
  | [] => some false
  | [w] => some (!w.isEmpty)
  | ['!'] :: rest => (condition? d rest).map not
  | [['-', 'n'], w] => some (!w.isEmpty)
  | [['-', 'z'], w] => some w.isEmpty
  | [['-', 'd'], w] => some (match kind? w with
    | some (.dir _) => true
    | _ => false)
  | [['-', 'f'], w] => some (match kind? w with
    | some (.file _ _) => true
    | _ => false)
  | [['-', 'e'], w] => some (kind? w).isSome
  | [a, ['='], b] => some (a = b)
  | [a, ['!', '='], b] => some (a ≠ b)
  | [a, ['-', 'e', 'q'], b] => do some ((← readNat? a) = (← readNat? b))
  | [a, ['-', 'n', 'e'], b] => do some ((← readNat? a) ≠ (← readNat? b))
  | _ => none
where
  kind? (w : List Char) : Option Node := do
    let name ← String.fromUTF8? (toBytes w)
    (d.stat (Path.ofString name)).toOption

/-- The status of a condition. -/
def conditionStatus (d : Disk) (words : List (List Char)) : Nat :=
  match condition? d words with
  | some true => 0
  | some false => 1
  | none => 2

/-- The variable that a word sets, if it is an assignment. -/
def assignment? (s : State) : Word → Option (List Char × List Char)
  | w =>
    let plain := w.takeWhile fun
      | .text ['='] false => false
      | .text _ false => true
      | _ => false
    let name := expandOne s plain
    match w.drop plain.length, name with
    | .text ['='] false :: value, c :: _ =>
      if isNameStart c && name.all isNameChar then some (name, expandOne s value) else none
    | _, _ => none

/-- Runs a command whose words have been expanded. The answer is what it prints to either stream and its
status, or how it ends the script. -/
def builtin (s : State) (line : Nat) :
    List (List Char) → Except Exit (List Char × List Char × Nat)
  | [] => .ok ([], [], 0)
  | name :: args =>
    match String.ofList name with
    | "echo" => .ok (echo args, [], 0)
    | "printf" => match args with
      | format :: args => .ok (printAll format (args.length + 1) args, [], 0)
      | [] => .ok ([], bytesOf s!"{scriptName}: {line}: printf: usage: printf format [arg ...]\n", 2)
    | "exit" => .error (.code (((args.head?.bind readNat?).getD s.status) % 256))
    | "kill" => match killSignal? args with
      | some n => if harmless.contains n then .ok ([], [], 0) else .error (.signal n)
      | none => .ok ([], [], 1)
    | "cat" => .ok (cat s.disk args)
    | "pwd" => .ok (bytesOf ((Disk.pathOf s.disk.cwd).display ++ "\n"), [], 0)
    | "true" => .ok ([], [], 0)
    | ":" => .ok ([], [], 0)
    | "sleep" => .ok ([], [], 0)
    | "false" => .ok ([], [], 1)
    | "test" => .ok ([], [], conditionStatus s.disk args)
    | "[" => .ok ([], [], if args.getLast? = some [']'] then conditionStatus s.disk args.dropLast else 2)
    | _ => .ok ([], bytesOf s!"{scriptName}: {line}: " ++ name ++ bytesOf ": not found\n", 127)
where
  scriptName : String := (String.fromUTF8? (toBytes ((s.args.head?).getD []))).getD ""

/-- Which of the script's streams a stream of a command goes to; nothing for a file. -/
structure Plumbing where
  out : Option Char
  err : Option Char

/-- Applies redirections from left to right. -/
def plumb (s : State) : List (Char × Sink) → Plumbing → Plumbing
  | [], p => p
  | (fd, sink) :: rest, p =>
    let goal : Option Char := match sink with
      | .stream '1' => p.out
      | .stream '2' => p.err
      | _ => none
    plumb s rest (if fd = '2' then { p with err := goal } else { p with out := goal })

/-- Puts what was printed where it goes. -/
def emit (s : State) (goal : Option Char) (cs : List Char) : State :=
  match goal with
  | some '1' => { s with out := s.out ++ cs }
  | some '2' => { s with err := s.err ++ cs }
  | _ => s

/-- Runs a command. One after the word `exec` takes the place of the script. -/
def runCommand (s : State) (c : Command) : Effect :=
  match c.words.mapM (assignment? s) with
  | some pairs => .goOn { s with bindings := pairs.reverse ++ s.bindings, status := 0 }
  | none =>
    let p := plumb s c.redirects ⟨some '1', some '2'⟩
    let (last, words) := match c.words.flatMap (expand s) with
      | ['e', 'x', 'e', 'c'] :: words => (!words.isEmpty, words)
      | words => (false, words)
    match builtin s c.line words with
    | .error exit => .ends exit s
    | .ok (out, err, status) =>
      let s := { emit (emit s p.out out) p.err err with status := status }
      if last then .ends (.code status) s else .goOn s

def isDue (s : State) : Link → Bool
  | .always => true
  | .ifOk => s.status = 0
  | .ifFailed => s.status ≠ 0

/-- Runs commands in turn. -/
def runAll : List Command → State → Exit × State
  | [], s => (.code s.status, s)
  | c :: cs, s =>
    if isDue s c.link then match runCommand s c with
      | .goOn s => runAll cs s
      | .ends exit s => (exit, s)
    else runAll cs s

/-- How a script ends and what it prints. -/
structure Outcome where
  exit : Exit
  out : ByteArray
  err : ByteArray

/-- Runs a script. `args` begins with its own name; `bindings` are the variables that are set from the start. -/
def run (d : Disk) (bindings : List (String × String)) (args : List String) (script : ByteArray) :
    Outcome :=
  let present := (("PWD", (Disk.pathOf d.cwd).display) :: bindings).map fun (name, value) =>
    (name.toList, bytesOf value)
  let s : State := ⟨d, args.map bytesOf, present, 0, [], []⟩
  match parse? (script.toList.map fun b => Char.ofNat b.toNat) with
  | none =>
    let name := (args.head?).getD ""
    ⟨.code 2, .empty, s!"{name}: Syntax error\n".toUTF8⟩
  | some commands =>
    let (exit, s) := runAll commands s
    ⟨exit, toBytes s.out, toBytes s.err⟩

end Sideload.Shell
