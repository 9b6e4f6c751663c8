import MiniMips.Configuration.Settings
import MiniMips.Machine.Memory
import MiniMips.Machine.Statistics
import MiniMips.RegisterFile

/-!
Contract: the state of a machine.

Owns: the output log, the state as a whole, its reset state, and its dump.

Does not own: the program, which is handed to the machine for every
instruction, and how instructions change the state.
-/

namespace MiniMips

inductive LogEntry where
  | value (word : Int32)
  | paused
deriving DecidableEq, Repr

/-- An entry of the output log as it is shown. -/
def LogEntry.text : LogEntry → String
  | .value word => Numeral.ofInt word.toInt
  | .paused => "Execution paused"

structure Machine where
  registers : RegisterFile
  /-- Address of the next instruction: its index in the program. -/
  pc : Nat
  memory : Memory
  /-- Output in the order in which it was produced. -/
  log : Array LogEntry
  statistics : Statistics

namespace Machine

/-- The machine in its reset state: everything is zero except the stack
pointer. -/
def fresh (configuration : Configuration) : Machine where
  registers := RegisterFile.zeroed.write Register.stackPointer
    configuration.memory.stackPointer
  pc := 0
  memory := Memory.zeroed configuration.memory.sizeBytes
  log := #[]
  statistics := Statistics.zero

def setRegister (machine : Machine) (register : Register) (value : Int32) :
    Machine :=
  { machine with registers := machine.registers.write register value }

def clearLog (machine : Machine) : Machine :=
  { machine with log := #[] }

/-- Count a run that returned, and the time it took. -/
def recordRun (machine : Machine) (nanoseconds : Nat) : Machine :=
  { machine with statistics := machine.statistics.recordRun nanoseconds }

/-- What is shown of a machine at the end of stepping or a run: a line with the
address of the next instruction, and the table of all registers in the order of
their indices.  The table has eight lines of four entries, each a marked name
and the contents of the register in decimal.  Memory, the output log and the
statistics are not shown. -/
def dump (machine : Machine) : String :=
  "pc = " ++ Numeral.ofNat machine.pc ++ "\n" ++ machine.registers.text

end Machine

end MiniMips
