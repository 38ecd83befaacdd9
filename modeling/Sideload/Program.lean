import Sideload.Command.Run
import Sideload.CommandLine.Parser
import Sideload.Config.File
import Sideload.Log.Console
import Sideload.Log.File

/-!
The program as a whole: from the command line to what is printed.
-/

namespace Sideload

/-- How a run of the program ends. -/
structure Outcome where
  code : Nat
  out : String
  err : String
  deriving DecidableEq

namespace Program

open CommandLine (Refusal)

/-- A line that says why the program fails. -/
def errorLine (message : String) : String := s!"Error: {message}\n"

/-- The end of a program that could not begin its work. -/
def stopped (message : String) : Outcome := ⟨1, "", errorLine message⟩

/-- The answer to a command line that holds no command. What was asked for goes to the output. -/
def refused (r : Refusal) : Outcome :=
  match r with
  | .help text => ⟨r.exitCode, text, ""⟩
  | .version text => ⟨r.exitCode, text, ""⟩
  | .noCommand text => ⟨r.exitCode, "", text⟩
  | _ => ⟨r.exitCode, "", r.message ++ "\n"⟩

/-- The log file, if one is configured. -/
def openLog (config : LoggingConfig) (home : Path) : Work Log.OpenError (Option Log.Sink) := do
  if config.enabled then return some (← Log.Sink.open config home)
  return none

def warningLines (sink? : Option Log.Sink) : String :=
  match sink? with
  | some sink => String.join (sink.warnings.map fun w => s!"Warning: {w}\n")
  | none => ""

/-- What the terminal shows of the log. -/
def consoleLines (env : Environment) (config : LoggingConfig) (records : List Log.Record) : String :=
  if config.stderr then (Log.Console.ofEnvironment env).text records else ""

/-- Carries out a command, and says in the log where the program's files are. -/
def perform (env : Environment) (home : Path) (config : Config) (c : Command) : Work Failure String := do
  Work.log .debug .program s!"Using nopkg directory {home.display}"
  c.run (Shelf.ofHome home) env config.install

/-- Carries out a command with its log. -/
def runLogged (env : Environment) (home : Path) (config : Config) (c : Command) : StateM World Outcome := do
  match ← (openLog config.logging home).run with
  | .error e => return stopped e.message
  | .ok sink? =>
    modify fun w => { w with log := [] }
    let answer ← (perform env home config c).run
    let records := (← get).log.reverse
    if let some sink := sink? then
      let _ ← (sink.write records).run
    let err := warningLines sink? ++ consoleLines env config.logging records
    match answer with
    | .ok out => return ⟨0, out, err⟩
    | .error f => return ⟨f.exitCode, "", err ++ errorLine f.fullMessage⟩

/-- Runs the program with its arguments. -/
def run (env : Environment) (args : List String) : StateM World Outcome := do
  match CommandLine.parse args with
  | .error r => return refused r
  | .ok c => match env.globalDir? with
    | none => return stopped Failure.noHome.fullMessage
    | some home => match Config.load (← get).disk home with
      | .error e => return stopped e.fullMessage
      | .ok config => runLogged env home config c

end Program

end Sideload
