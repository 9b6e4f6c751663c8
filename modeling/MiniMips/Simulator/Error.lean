import MiniMips.Assembly.Program
import MiniMips.Configuration.Settings
import MiniMips.Machine.ExecutionError

/-!
Contract: everything that can stop a simulation.

Owns: the causes as one type, their wording, and the source line that each is
about.
-/

namespace MiniMips

inductive SimulatorError where
  | lex (lexError : LexError)
  | parse (parseError : ParseError)
  | execution (executionError : ExecutionError)
  /-- There is no text to be read under a path. -/
  | unreadable (path : String)
  | malformedConfiguration
  | invalidConfiguration (fault : ConfigurationFault)
deriving DecidableEq, Repr

def AssemblyError.simulatorError : AssemblyError → SimulatorError
  | .lex lexError => .lex lexError
  | .parse parseError => .parse parseError

namespace SimulatorError

/-- Wording of an error.  What a file system says about an unreadable file, and
where a malformed text goes wrong, would come last and is left to the
surroundings. -/
def message : SimulatorError → String
  | .lex lexError => "lex error: " ++ lexError.message
  | .parse parseError => "parse error: " ++ parseError.message
  | .execution executionError =>
      "execution error: " ++ executionError.message
  | .unreadable path => "could not read `" ++ path ++ "`: "
  | .malformedConfiguration => "invalid configuration: "
  | .invalidConfiguration fault => "invalid configuration: " ++ fault.message

/-- The source line that an error is about, if it is about one. -/
def line? : SimulatorError → Option Nat
  | .lex lexError => some lexError.line
  | .parse parseError => some parseError.line
  | .execution executionError => executionError.line?
  | .unreadable _ => none
  | .malformedConfiguration => none
  | .invalidConfiguration _ => none

end SimulatorError

end MiniMips
