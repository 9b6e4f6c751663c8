import MiniMips.Configuration.Settings
import MiniMips.Json.Library

/-!
Contract: settings written as a JSON document.

Owns:
- the fields of settings with their names, the values they accept, and the
  values they have where they are left out;
- the settings of a text.

Does not own: the library for JSON, which is a parameter.
-/

namespace MiniMips

open Json (Decoder RecordField Library)

variable [Library]

namespace GeneralSettings

def traceInstructionsField : RecordField Bool where
  name := "trace_instructions"
  decoder := Library.boolean
  standard := false

def maxStepsField : RecordField (Option Nat) where
  name := "max_steps"
  decoder := Library.optional Library.natural
  standard := none

def decoder : Decoder GeneralSettings := fun document =>
  (Library.record traceInstructionsField maxStepsField document).map
    (fun values => ⟨values.1, values.2⟩)

end GeneralSettings

namespace MemorySettings

def sizeBytesField : RecordField Nat where
  name := "size_bytes"
  decoder := Library.natural
  standard := standardSize

def initialStackPointerField : RecordField (Option Int32) where
  name := "initial_sp"
  decoder := Library.optional Library.word
  standard := none

def decoder : Decoder MemorySettings := fun document =>
  (Library.record sizeBytesField initialStackPointerField document).map
    (fun values => ⟨values.1, values.2⟩)

end MemorySettings

namespace Configuration

def generalField : RecordField GeneralSettings where
  name := "general"
  decoder := GeneralSettings.decoder
  standard := GeneralSettings.standard

def memoryField : RecordField MemorySettings where
  name := "memory"
  decoder := MemorySettings.decoder
  standard := MemorySettings.standard

def decoder : Decoder Configuration := fun document =>
  (Library.record generalField memoryField document).map
    (fun values => ⟨values.1, values.2⟩)

/-- Read settings from the text of a document, without checking them. -/
def ofText? (text : String) : Option Configuration :=
  Library.fromText? decoder text

end Configuration

end MiniMips
