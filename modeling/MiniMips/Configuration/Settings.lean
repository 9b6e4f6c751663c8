import MiniMips.Numeral

/-!
Contract: the settings of a simulation.

Owns: the settings with their defaults, the stack pointer they imply, and the
check that they describe a usable machine.

Does not own: reading settings from a document.
-/

namespace MiniMips

structure GeneralSettings where
  /-- Whether every executed instruction is to be logged. -/
  traceInstructions : Bool
  /-- Largest number of instructions in one run, if there is one. -/
  maxSteps? : Option Nat
deriving DecidableEq, Repr

structure MemorySettings where
  sizeBytes : Nat
  initialStackPointer? : Option Int32
deriving DecidableEq, Repr

structure Configuration where
  general : GeneralSettings
  memory : MemorySettings
deriving DecidableEq, Repr

inductive ConfigurationFault where
  /-- Effective addresses do not reach all of the memory. -/
  | memoryTooLarge (size : Nat)
  /-- The stack pointer is negative or past the end of the memory. -/
  | stackPointerOutOfRange (stackPointer : Int32) (size : Nat)
deriving DecidableEq, Repr

/-- Nothing is traced and runs are unbounded. -/
def GeneralSettings.standard : GeneralSettings where
  traceInstructions := false
  maxSteps? := none

namespace MemorySettings

/-- Sixty-four kibibytes. -/
def standardSize : Nat := 64 * 1024

/-- A memory of the standard size, with the stack pointer at its end. -/
def standard : MemorySettings where
  sizeBytes := standardSize
  initialStackPointer? := none

/-- Largest memory whose end is still a signed word. -/
def largestSize : Nat := 0x7FFFFFFF

/-- First contents of the stack pointer: as set, and otherwise the end of the
memory.  Where that is no signed word, it is the largest one. -/
def stackPointer (settings : MemorySettings) : Int32 :=
  settings.initialStackPointer?.getD
    (Int32.ofNat (min settings.sizeBytes largestSize))

/-- Whether an address is within the memory or directly at its end. -/
def holdsStackPointer (settings : MemorySettings) (stackPointer : Int32) :
    Bool :=
  decide (0 ≤ stackPointer.toInt ∧ stackPointer.toInt ≤ settings.sizeBytes)

/-- Check that a machine with these settings is usable.  The size is looked at
first. -/
def validate (settings : MemorySettings) : Except ConfigurationFault Unit :=
  if largestSize < settings.sizeBytes then
    .error (.memoryTooLarge settings.sizeBytes)
  else
    match settings.initialStackPointer? with
    | none => .ok ()
    | some stackPointer =>
        if settings.holdsStackPointer stackPointer then
          .ok ()
        else
          .error (.stackPointerOutOfRange stackPointer settings.sizeBytes)

end MemorySettings

def ConfigurationFault.message : ConfigurationFault → String
  | .memoryTooLarge size =>
      "memory.size_bytes " ++ Numeral.ofNat size ++ " exceeds the maximum of " ++
        Numeral.ofNat MemorySettings.largestSize ++ " bytes"
  | .stackPointerOutOfRange stackPointer size =>
      "memory.initial_sp " ++ Numeral.ofInt stackPointer.toInt ++
        " is outside memory of " ++ Numeral.ofNat size ++ " bytes"

namespace Configuration

def standard : Configuration where
  general := GeneralSettings.standard
  memory := MemorySettings.standard

def validate (configuration : Configuration) :
    Except ConfigurationFault Unit :=
  configuration.memory.validate

end Configuration

end MiniMips
