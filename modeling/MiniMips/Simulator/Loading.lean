import MiniMips.Configuration.Reading
import MiniMips.Simulator.Error

/-!
Contract: texts and configurations that are read from files.

Owns: the view of the file system that a simulation has, reading a source, and
reading and checking a configuration.

Does not own: the library for JSON that configurations are read with, which is
a parameter.
-/

namespace MiniMips

/-- What is read under each path: its text, or nothing where there is no file
or its bytes are no text. -/
abbrev FileReader := String → Option String

def FileReader.load (files : FileReader) (path : String) :
    Except SimulatorError String :=
  match files path with
  | some text => .ok text
  | none => .error (.unreadable path)

namespace Configuration

variable [Json.Library]

/-- Read and check settings.  A text that is no configuration is refused
whatever values it holds. -/
def load (text : String) : Except SimulatorError Configuration :=
  match ofText? text with
  | none => .error .malformedConfiguration
  | some configuration =>
      match configuration.validate with
      | .error fault => .error (.invalidConfiguration fault)
      | .ok () => .ok configuration

def loadFile (files : FileReader) (path : String) :
    Except SimulatorError Configuration :=
  match files.load path with
  | .error simulatorError => .error simulatorError
  | .ok text => load text

end Configuration

end MiniMips
