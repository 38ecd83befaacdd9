import Sideload.CommandLine.Spec

/-!
Reading the arguments of one command.

An option or operand that was begun is taken into account when the next one begins, or at the end; only
then it can turn out to be wrong. An argument that nobody knows is refused at once. After two dashes
there are no options.
-/

namespace Sideload.CommandLine

/-- Why arguments are not accepted, or what is shown instead of a command. -/
inductive Refusal where
  | help (text : String)
  /-- Help for somebody who gave no command. -/
  | noCommand (text : String)
  | version (text : String)
  | unknownCommand (word : String)
  | unknownArgument (word : String)
  | repeated (argument : String)
  | noValue (argument : String)
  | needlessValue (value argument : String)
  | missingOperand
  deriving DecidableEq

namespace Refusal

def message : Refusal → String
  | help text => text
  | noCommand text => text
  | version text => text
  | unknownCommand word => s!"error: unrecognized subcommand '{word}'"
  | unknownArgument word => s!"error: unexpected argument '{word}' found"
  | repeated argument => s!"error: the argument '{argument}' cannot be used multiple times"
  | noValue argument => s!"error: a value is required for '{argument}' but none was supplied"
  | needlessValue value argument =>
    s!"error: unexpected value '{value}' for '{argument}' found; no more were expected"
  | missingOperand => "error: the following required arguments were not provided:"

/-- The code with which the program ends. -/
def exitCode : Refusal → Nat
  | help _ => 0
  | version _ => 0
  | _ => 2

end Refusal

/-- What was given to a command: its operand, and its options by their long names. -/
structure Given where
  operand : Option String := none
  values : List (String × String) := []
  deriving DecidableEq

namespace Given

def value? (g : Given) (long : String) : Option String := g.values.lookup long

def has (g : Given) (long : String) : Bool := (g.value? long).isSome

end Given

/-- What was begun and is not yet taken into account. -/
inductive Pending where
  | nothing
  /-- An option that waits for its value. -/
  | waiting (s : Switch)
  | valued (s : Switch) (value : String)
  | operand (o : Operand) (value : String)

structure Reading where
  given : Given := {}
  pending : Pending := .nothing

namespace Reading

/-- Takes an option into account. -/
def take (r : Reading) (s : Switch) (value : String) : Except Refusal Reading :=
  if r.given.has s.long then .error (.repeated s.title)
  else .ok { r with given.values := (s.long, value) :: r.given.values, pending := .nothing }

/-- Takes into account what was begun. -/
def settle (r : Reading) : Except Refusal Reading :=
  match r.pending with
  | .nothing => .ok r
  | .waiting s => .error (.noValue s.title)
  | .valued s value => r.take s value
  | .operand o value =>
    if value.isEmpty && !o.mayBeEmpty then .error (.noValue o.shown)
    else .ok { r with given.operand := some value, pending := .nothing }

/-- Begins an option that takes a value. -/
def await (r : Reading) (s : Switch) : Except Refusal Reading :=
  r.settle.map ({ · with pending := .waiting s })

/-- An option with the value attached to it. -/
def attach (r : Reading) (s : Switch) (value : String) : Except Refusal Reading := do
  (← r.settle).take s value

end Reading

namespace Spec

def version : String := "0.1.0"

/-- The text that tells the version of the program. -/
def versionText (s : Spec) : String := s.call.replace " " "-" ++ s!" {version}\n"

/-- An option without a value. -/
def react (spec : Spec) (r : Reading) (s : Switch) : Except Refusal Reading := do
  let r ← r.settle
  match s.role with
  | .help => throw (.help spec.help)
  | .version => throw (.version spec.versionText)
  | _ => r.take s ""

/-- An option in its long form, with the value after its equals sign. -/
def long (spec : Spec) (r : Reading) (name : String) (value? : Option String) : Except Refusal Reading :=
  match spec.switches.find? (·.long = name), value? with
  | none, _ => .error (.unknownArgument s!"--{name}")
  | some s, none => match s.role with
    | .value _ => r.await s
    | _ => spec.react r s
  | some s, some value => match s.role with
    | .value _ => r.attach s value
    | _ => .error (.needlessValue value s.title)

/-- Short options in a row. One that takes a value takes the rest. -/
def cluster (spec : Spec) : Reading → List Char → Except Refusal Reading
  | r, [] => .ok r
  | r, c :: cs =>
    match spec.switches.find? (·.short = some c) with
    | none => .error (.unknownArgument s!"-{c}")
    | some s => match s.role, cs with
      | .value _, [] => r.await s
      | .value _, '=' :: cs => r.attach s (String.ofList cs)
      | .value _, cs => r.attach s (String.ofList cs)
      | _, cs => do cluster spec (← spec.react r s) cs

/-- An argument that is no option. There is room for one at most; `surplus` refuses the others. -/
def operandArgument (spec : Spec) (surplus : String → Refusal) (r : Reading) (arg : String) :
    Except Refusal Reading :=
  let taken := r.given.operand.isSome || (match r.pending with
    | .operand _ _ => true
    | _ => false)
  match spec.operand with
  | some o =>
    if taken then .error (surplus arg) else r.settle.map ({ · with pending := .operand o arg })
  | none => .error (surplus arg)

/-- A long option cut at its equals sign. -/
def splitValue (cs : List Char) : String × Option String :=
  match cs.span (· ≠ '=') with
  | (name, []) => (String.ofList name, none)
  | (name, _ :: value) => (String.ofList name, some (String.ofList value))

/-- One argument, where options are possible. -/
def argument (spec : Spec) (surplus : String → Refusal) (r : Reading) (arg : String) :
    Except Refusal Reading :=
  let plain : Except Refusal Reading :=
    match r.pending with
    | .waiting s => .ok { r with pending := .valued s arg }
    | _ => spec.operandArgument surplus r arg
  match arg.toList with
  | '-' :: '-' :: cs => spec.long r (splitValue cs).1 (splitValue cs).2
  | ['-'] => plain
  | '-' :: cs => spec.cluster r cs
  | _ => plain

/-- Reads all arguments. `options` says whether there can still be options. -/
def readAll (spec : Spec) (surplus : String → Refusal) :
    (options : Bool) → Reading → List String → Except Refusal Given
  | _, r, [] => r.settle.map (·.given)
  | false, r, arg :: args => do
    readAll spec surplus false (← spec.operandArgument surplus r arg) args
  | true, r, arg :: args =>
    if arg = "--" then readAll spec surplus false r args
    else do readAll spec surplus true (← spec.argument surplus r arg) args

/-- Reads the arguments of a command. -/
def read (spec : Spec) (args : List String) : Except Refusal Given :=
  spec.readAll .unknownArgument true {} args

end Spec

end Sideload.CommandLine
