import Sideload.Environment
import Sideload.Log.Filter
import Sideload.Log.Text

/-!
The log on the terminal.
-/

namespace Sideload.Log

/-- What the terminal shows of the log. -/
structure Console where
  filter : Filter
  coloured : Bool

namespace Console

/-- The variable with the filter. -/
def filterVariable : String := "RUST_LOG"

/-- The variable that, if it is set to something, rules out colours. -/
def plainVariable : String := "NO_COLOR"

/-- The filter where none is asked for. -/
def standard : Filter := [Rule.upTo Topic.program.label .warn]

/-- The console that an environment asks for. A filter that cannot be read counts for nothing. -/
def ofEnvironment (env : Environment) : Console :=
  { filter := ((env.get? filterVariable).bind Filter.ofText?).getD standard
    coloured := (env.nonEmpty? plainVariable).isNone }

/-- The lines for the records that are shown. -/
def text (c : Console) (records : List Record) : String :=
  String.join ((records.filter c.filter.allows).map (·.consoleLine c.coloured))

end Console

end Sideload.Log
