import MiniMips.Instruction
import MiniMips.Machine.Action
import MiniMips.Machine.ExecutionError
import MiniMips.Machine.State

/-!
Contract: what one instruction changes, told before anything is changed.

Owns:
- the effect of an instruction as a value;
- the effect that an instruction has on a machine, or the fault that it has
  instead;
- carrying an effect out.

Does not own: executing an instruction in place, operation by operation, which
comes to the same.

An instruction is checked in a fixed order: first its register fields, in the
order of its operands, then what its action asks for.
-/

namespace MiniMips

/-- What one instruction changes. -/
structure Effect where
  pc : Nat
  taken : Bool
  /-- Register to be written, and its new contents. -/
  register? : Option (Register × Int32)
  /-- Index of the first byte to be written, and the bytes. -/
  bytes? : Option (Nat × List UInt8)
  /-- Entry to be appended to the log. -/
  entry? : Option LogEntry
deriving DecidableEq

/-- What the driver of a machine is told after an instruction. -/
inductive Outcome where
  | proceed
  | pause
deriving DecidableEq, Repr

namespace Effect

/-- Go to an address and change nothing else. -/
def goTo (address : Nat) : Effect where
  pc := address
  taken := false
  register? := none
  bytes? := none
  entry? := none

/-- Go to an address because a branch condition held. -/
def branchTo (address : Nat) : Effect :=
  { goTo address with taken := true }

def writing (effect : Effect) (register : Register) (value : Int32) : Effect :=
  { effect with register? := some (register, value) }

def storing (effect : Effect) (start : Nat) (bytes : List UInt8) : Effect :=
  { effect with bytes? := some (start, bytes) }

def logging (effect : Effect) (entry : LogEntry) : Effect :=
  { effect with entry? := some entry }

/-- What the driver of a machine is told. -/
def outcome (effect : Effect) : Outcome :=
  if effect.entry? = some .paused then .pause else .proceed

end Effect

/-- An access that a memory refuses, as a fault of an instruction. -/
def AccessFault.executionFault (address : Int) (width limit : Nat) :
    AccessFault → ExecutionFault
  | .outOfBounds => .memoryOutOfBounds address width limit
  | .misaligned => .misalignedAccess address width

def LoadKind.width : LoadKind → Nat
  | .word => Memory.wordWidth
  | .signedByte | .unsignedByte => 1

/-- Read what a load takes and fill a word with it.  A byte fills the lowest
byte, and the others with its sign or with zeros. -/
def LoadKind.read (kind : LoadKind) (memory : Memory) (address : Int) :
    Except AccessFault Int32 :=
  match kind with
  | .word => memory.readWord address
  | .signedByte =>
      match memory.readByte address with
      | .error fault => .error fault
      | .ok byte => .ok byte.toInt8.toInt32
  | .unsignedByte =>
      match memory.readByte address with
      | .error fault => .error fault
      | .ok byte => .ok (Int32.ofNat byte.toNat)

def StoreKind.width : StoreKind → Nat
  | .word => Memory.wordWidth
  | .byte => 1

/-- The bytes that a store writes for a word.  A byte store writes the lowest
one. -/
def StoreKind.bytes (kind : StoreKind) (word : Int32) : List UInt8 :=
  bytesOfValue kind.width word.toUInt32.toNat

namespace Instruction

/-- The first used register field that names no register. -/
def invalidField? (instruction : Instruction) : Option Int8 :=
  instruction.usedFields.find? (fun field => (Register.ofField? field).isNone)

/-- The register of a field.  For a field that names none it is the zero
register; no instruction that is executed uses such a field. -/
def registerOfField (field : Int8) : Register :=
  (Register.ofField? field).getD Register.zero

/-- A destination as an address, if it is not before the program. -/
def addressOfTarget (target : Int) : Except ExecutionFault Nat :=
  match target with
  | .ofNat address => .ok address
  | .negSucc _ => .error (.invalidJumpTarget target)

/-- The address of the instruction after the one at `pc`, as a word. -/
def returnAddress (pc : Nat) : Int32 :=
  Int32.ofNat (pc + 1)

/-- The effect of an action whose register fields all name registers. -/
def actionEffect (instruction : Instruction) (machine : Machine) :
    Except ExecutionFault Effect :=
  let destination := registerOfField instruction.rd
  let first := machine.registers.read (registerOfField instruction.rs)
  let second := machine.registers.read (registerOfField instruction.rt)
  let immediate := instruction.immediate
  let advance := Effect.goTo (machine.pc + 1)
  let effectiveAddress := first.toInt + immediate.toInt
  match instruction.opcode.action with
  | .idle => .ok advance
  | .pause => .ok (advance.logging .paused)
  | .compute operation =>
      match Alu.execute operation first second with
      | some result => .ok (advance.writing destination result)
      | none => .error .divisionByZero
  | .computeImmediate operation =>
      match Alu.execute operation first immediate with
      | some result => .ok (advance.writing destination result)
      | none => .error .divisionByZero
  | .loadUpper => .ok (advance.writing destination (immediate <<< 16))
  | .loadImmediate => .ok (advance.writing destination immediate)
  | .copy => .ok (advance.writing destination first)
  | .branch condition =>
      if condition.holds first second then
        match addressOfTarget (instruction.branchDestination machine.pc) with
        | .error fault => .error fault
        | .ok address => .ok (Effect.branchTo address)
      else
        .ok advance
  | .jump =>
      match addressOfTarget instruction.jumpDestination with
      | .error fault => .error fault
      | .ok address => .ok (Effect.goTo address)
  | .jumpAndLink =>
      match addressOfTarget instruction.jumpDestination with
      | .error fault => .error fault
      | .ok address =>
          .ok ((Effect.goTo address).writing Register.returnAddress
            (returnAddress machine.pc))
  | .jumpRegister =>
      match addressOfTarget first.toInt with
      | .error fault => .error fault
      | .ok address => .ok (Effect.goTo address)
  | .jumpRegisterAndLink =>
      match addressOfTarget first.toInt with
      | .error fault => .error fault
      | .ok address =>
          .ok ((Effect.goTo address).writing destination
            (returnAddress machine.pc))
  | .load kind =>
      match kind.read machine.memory effectiveAddress with
      | .error fault =>
          .error (fault.executionFault effectiveAddress kind.width
            machine.memory.size)
      | .ok value => .ok (advance.writing destination value)
  | .store kind =>
      match machine.memory.locate effectiveAddress kind.width with
      | .error fault =>
          .error (fault.executionFault effectiveAddress kind.width
            machine.memory.size)
      | .ok start => .ok (advance.storing start (kind.bytes second))
  | .print => .ok (advance.logging (.value first))

/-- The effect of an instruction on a machine, or why it has none. -/
def effect (instruction : Instruction) (machine : Machine) :
    Except ExecutionFault Effect :=
  match instruction.invalidField? with
  | some field => .error (.invalidRegister instruction.opcode field)
  | none => instruction.actionEffect machine

end Instruction

def Statistics.recordEffect (statistics : Statistics) (opcode : Opcode)
    (effect : Effect) : Statistics :=
  let counted := statistics.record opcode.instructionClass effect.taken
  match effect.outcome with
  | .proceed => counted
  | .pause => counted.recordBreakpoint

/-- Carry out the effect of an operation. -/
def Machine.apply (machine : Machine) (opcode : Opcode) (effect : Effect) :
    Machine :=
  match machine with
  | ⟨registers, _, memory, log, statistics⟩ =>
      { registers :=
          match effect.register? with
          | some (register, value) => registers.write register value
          | none => registers
        pc := effect.pc
        memory :=
          match effect.bytes? with
          | some (start, bytes) => memory.setBytes start bytes
          | none => memory
        log :=
          match effect.entry? with
          | some entry => log.push entry
          | none => log
        statistics := statistics.recordEffect opcode effect }

end MiniMips
