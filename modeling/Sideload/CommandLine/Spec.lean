/-!
What the commands of a command line take, and the help that says so.
-/

namespace Sideload.CommandLine

/-- What an option is for. -/
inductive Role where
  | flag
  /-- The option takes a value; its placeholder in the help. -/
  | value (placeholder : String)
  | help
  | version
  deriving DecidableEq

/-- An option. -/
structure Switch where
  short : Option Char
  long : String
  role : Role
  about : String
  deriving DecidableEq

/-- An argument that is no option. -/
structure Operand where
  shown : String
  about : String
  mayBeEmpty : Bool
  deriving DecidableEq

/-- What a command takes. -/
structure Spec where
  /-- The words that call the command. -/
  call : String
  about : String
  operand : Option Operand
  switches : List Switch
  /-- The commands to choose from, with what they do. -/
  choices : List (String × String) := []

namespace Switch

/-- The option as messages name it. -/
def title (s : Switch) : String :=
  match s.role with
  | .value placeholder => s!"--{s.long} <{placeholder}>"
  | _ => s!"--{s.long}"

/-- The option in the help; a missing short form leaves a gap. -/
def label (s : Switch) : String :=
  match s.short with
  | some c => s!"-{c}, {s.title}"
  | none => s!"    {s.title}"

/-- Whether an option is more than a question about the command. -/
def isProper (s : Switch) : Bool :=
  match s.role with
  | .flag => true
  | .value _ => true
  | .help => false
  | .version => false

def helpSwitch : Switch := ⟨some 'h', "help", .help, "Print help"⟩

def versionSwitch : Switch := ⟨some 'V', "version", .version, "Print version"⟩

end Switch

/-! ### Help -/

/-- Two columns: the first is as wide as its longest item. -/
def columns (rows : List (String × String)) : String :=
  let width := (rows.map (·.1.length)).foldl max 0
  String.join (rows.map fun (left, right) =>
    "  " ++ left ++ String.ofList (List.replicate (width - left.length) ' ') ++ s!"  {right}\n")

/-- A titled part of the help, unless it is empty. -/
def part (title : String) (rows : List (String × String)) : String :=
  if rows.isEmpty then "" else s!"\n{title}:\n" ++ columns rows

namespace Spec

/-- The line that shows how the command is called. -/
def usage (s : Spec) : String :=
  s.call ++
    (if s.switches.any Switch.isProper then " [OPTIONS]" else "") ++
    (match s.operand with
      | some o => s!" {o.shown}"
      | none => "") ++
    (if s.choices.isEmpty then "" else " <COMMAND>")

/-- The help of the command. -/
def help (s : Spec) : String :=
  s!"{s.about}\n\nUsage: {s.usage}\n" ++
    part "Commands" s.choices ++
    part "Arguments" (s.operand.toList.map fun o => (o.shown, o.about)) ++
    part "Options" (s.switches.map fun w => (w.label, w.about))

end Spec

end Sideload.CommandLine
