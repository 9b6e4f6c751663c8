import MiniMips.Numeral
import MiniMips.Opcode

/-!
Contract: the faults of executing a program.

Owns: the causes, their wording, and the source line that each is reported on.
-/

namespace MiniMips

inductive ExecutionFault where
  | divisionByZero
  /-- An access of `width` bytes leaves a memory of `limit` bytes. -/
  | memoryOutOfBounds (address : Int) (width limit : Nat)
  /-- The address of a word is no multiple of its width. -/
  | misalignedAccess (address : Int) (width : Nat)
  /-- A register field that the operation uses names no register. -/
  | invalidRegister (opcode : Opcode) (field : Int8)
  /-- A transfer goes before the start of the program. -/
  | invalidJumpTarget (target : Int)
deriving DecidableEq, Repr

/-- Wording of a fault, after the line number. -/
def ExecutionFault.message : ExecutionFault → String
  | .divisionByZero => "division by zero"
  | .memoryOutOfBounds address width limit =>
      Numeral.ofNat width ++ "-byte access at address " ++
        Numeral.ofInt address ++ " is out of bounds (memory is " ++
        Numeral.ofNat limit ++ " bytes)"
  | .misalignedAccess address width =>
      "misaligned " ++ Numeral.ofNat width ++ "-byte access at address " ++
        Numeral.ofInt address
  | .invalidRegister opcode field =>
      "register index " ++ Numeral.ofInt field.toInt ++ " is invalid for `" ++
        opcode.mnemonic ++ "`"
  | .invalidJumpTarget target =>
      "jump target " ++ Numeral.ofInt target ++
        " is before the start of the program"

inductive ExecutionError where
  | fault (line : Nat) (cause : ExecutionFault)
  /-- The program counter is at no instruction of a program of `size`. -/
  | outsideProgram (pc size : Nat)
  /-- A run has used up its budget before the instruction of a source line. -/
  | stepLimitExceeded (limit line : Nat)
deriving DecidableEq, Repr

def ExecutionError.message : ExecutionError → String
  | .fault line cause =>
      "line " ++ Numeral.ofNat line ++ ": " ++ cause.message
  | .outsideProgram pc size =>
      "program counter " ++ Numeral.ofNat pc ++ " is outside the program (" ++
        Numeral.ofNat size ++ " instructions)"
  | .stepLimitExceeded limit line =>
      "step limit of " ++ Numeral.ofNat limit ++
        " instructions exceeded at line " ++ Numeral.ofNat line

/-- The source line that an error is about, if it is about one. -/
def ExecutionError.line? : ExecutionError → Option Nat
  | .fault line _ => some line
  | .outsideProgram _ _ => none
  | .stepLimitExceeded _ line => some line

end MiniMips
