import Sideload.Command.Basic
import Sideload.CommandLine.Reader

/-!
The command line of the program.
-/

namespace Sideload.CommandLine

/-- The words that name commands. -/
inductive Verb where
  | install
  | list
  | info
  | update
  | uninstall
  deriving DecidableEq

namespace Verb

def all : List Verb := [install, list, info, update, uninstall]

def word : Verb → String
  | install => "install"
  | list => "list"
  | info => "info"
  | update => "update"
  | uninstall => "uninstall"

def about : Verb → String
  | install => "Install a Python module from a file or directory"
  | list => "List all modules installed by nopkg"
  | info => "Show information about an installed module"
  | update => "Reinstall a module from its original source"
  | uninstall => "Uninstall a module installed by nopkg"

def ofWord? (w : String) : Option Verb := all.find? (·.word = w)

end Verb

/-! ### What the commands take -/

def program : String := "nopkg"

def moduleOperand : Operand := ⟨"<NAME>", "Name of the module", true⟩

def sourceOperand : Operand := ⟨"<SOURCE>", "Path to a .py file or a package directory", false⟩

def devSwitch : Switch :=
  ⟨some 'e', "dev", .flag, "Development mode: link to the source instead of copying it"⟩

def nameSwitch : Switch :=
  ⟨some 'n', "name", .value "NAME", "Module name (defaults to the file stem or directory name)"⟩

def jsonSwitch : Switch := ⟨none, "json", .flag, "Output as JSON"⟩

def questions : List Switch := [Switch.helpSwitch, Switch.versionSwitch]

namespace Verb

def operand : Verb → Option Operand
  | install => some sourceOperand
  | list => none
  | _ => some moduleOperand

def switches : Verb → List Switch
  | install => [devSwitch, nameSwitch]
  | list => [jsonSwitch]
  | info => [jsonSwitch]
  | _ => []

def spec (v : Verb) : Spec :=
  { call := s!"{program} {v.word}"
    about := v.about
    operand := v.operand
    switches := v.switches ++ questions }

/-- The command that a verb makes of its arguments, if nothing is missing. -/
def command? (v : Verb) (g : Given) : Option Command :=
  let json := g.has jsonSwitch.long
  match v with
  | install => g.operand.map fun source =>
    .install (Path.ofString source) (.ofDevFlag (g.has devSwitch.long)) (g.value? nameSwitch.long)
  | list => some (.list json)
  | info => g.operand.map (.info · json)
  | update => g.operand.map .update
  | uninstall => g.operand.map .uninstall

/-- Reads the arguments of a verb. -/
def read (v : Verb) (args : List String) : Except Refusal Command := do
  match v.command? (← v.spec.read args) with
  | some c => return c
  | none => throw .missingOperand

end Verb

/-! ### The program as a whole -/

def helpWord : String := "help"

def helpAbout : String := "Print this message or the help of the given subcommand(s)"

/-- What the program takes before a command. -/
def programSpec : Spec :=
  { call := program
    about := "Install Python modules without packaging setup"
    operand := none
    switches := questions
    choices := Verb.all.map (fun v => (v.word, v.about)) ++ [(helpWord, helpAbout)] }

def helpSpec : Spec :=
  { call := s!"{program} {helpWord}"
    about := helpAbout
    operand := some ⟨"[COMMAND]...", "Print help for the subcommand(s)", true⟩
    switches := [] }

/-- What a command is known by, if it is one. -/
def specOf? (w : String) : Option Spec :=
  if w = helpWord then some helpSpec else (Verb.ofWord? w).map Verb.spec

/-- The help that is asked for by words. No command has commands of its own. -/
def readHelp : List String → Refusal
  | [] => .help programSpec.help
  | w :: ws => match specOf? w, ws with
    | none, _ => .unknownCommand w
    | some spec, [] => .help spec.help
    | some _, w :: _ => .unknownCommand w

/-- Arguments after two dashes that come before any command. A command is no longer possible there. -/
def readAfterDashes : List String → Refusal
  | [] => .noCommand programSpec.help
  | w :: _ => if (specOf? w).isSome then .unknownArgument w else .unknownCommand w

/-- Reads a command line without the name of the program. -/
def parse : List String → Except Refusal Command
  | [] => .error (.noCommand programSpec.help)
  | w :: ws =>
    match Verb.ofWord? w with
    | some v => v.read ws
    | none =>
      if w = helpWord then .error (readHelp ws)
      else if w = "--" then .error (readAfterDashes ws)
      else match programSpec.argument .unknownCommand {} w with
        | .error r => .error r
        | .ok _ => .error (.noCommand programSpec.help)

end Sideload.CommandLine
