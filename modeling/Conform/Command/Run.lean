import Conform.Terminal.Arguments
import Conform.Terminal.Drawing

/-!
# Running the command

The command as it is run at a terminal. What it relies on is put together here from the modules on
terminals; nothing that is known about runs depends on that choice.
-/

namespace Conform.Command

/-- What the command has around it at a terminal, given what is said of a text that is no tree. -/
def terminal (complaint : String → String) : Surroundings where
  interpret arguments := (Terminal.parse arguments).mapError Terminal.Stop.result
  complaint := complaint
  draw := Terminal.drawn

/-- Runs the command. The reader of trees gives no reasons, so one sentence has to do for all texts
that are none. -/
def run {m : Type → Type} [Monad m] (read : String → m (Except FileError String))
    (arguments : List String) : m Result :=
  (terminal fun _ => "the text is not the JSON form of a module").run read arguments

end Conform.Command
