import MiniMips.Machine.Effect

/-!
Contract: executing one instruction in place.

Owns:
- procedures, which change a machine bit by bit and may fault in between;
- the operations that they are put together from;
- the procedure of an instruction.

Does not own: that a fault comes before the first change.  What a procedure has
changed when it faults stays changed, so this is a property of the order of its
operations and has to be proved.
-/

namespace MiniMips

/-- A computation on a machine.  A fault ends it and leaves the machine as it
is at that point. -/
abbrev Procedure (α : Type) := EStateM ExecutionFault Machine α

/-- How an instruction hands over to the next one. -/
structure Handover where
  pc : Nat
  taken : Bool
  outcome : Outcome

def Handover.goTo (address : Nat) : Handover where
  pc := address
  taken := false
  outcome := .proceed

namespace Machine

def storeBytes (machine : Machine) (start : Nat) (bytes : List UInt8) :
    Machine :=
  { machine with memory := machine.memory.setBytes start bytes }

def appendLog (machine : Machine) (entry : LogEntry) : Machine :=
  { machine with log := machine.log.push entry }

def countBreakpoint (machine : Machine) : Machine :=
  { machine with statistics := machine.statistics.recordBreakpoint }

/-- Move to the next instruction and count the one that has been executed. -/
def retire (machine : Machine) (opcode : Opcode) (handover : Handover) :
    Machine :=
  { machine with
    pc := handover.pc
    statistics :=
      machine.statistics.record opcode.instructionClass handover.taken }

end Machine

/-- Whether the condition of a branch looks at both source registers. -/
def BranchCondition.comparesRegisters : BranchCondition → Bool
  | .equal | .unequal => true
  | .nonnegative | .positive | .nonpositive | .negative => false

def LoadKind.fetch (kind : LoadKind) (address : Int) : Procedure Int32 := do
  let memory := (← get).memory
  match kind.read memory address with
  | .ok value => pure value
  | .error fault =>
      throw (fault.executionFault address kind.width memory.size)

def StoreKind.write (kind : StoreKind) (address : Int) (word : Int32) :
    Procedure Unit := do
  let machine ← get
  match machine.memory.locate address kind.width with
  | .ok start => modify (·.storeBytes start (kind.bytes word))
  | .error fault =>
      throw (fault.executionFault address kind.width machine.memory.size)

def AluOperation.compute (operation : AluOperation) (left right : Int32) :
    Procedure Int32 :=
  match Alu.execute operation left right with
  | some result => pure result
  | none => throw .divisionByZero

namespace Instruction

/-- The register that a field names. -/
def requireRegister (instruction : Instruction) (field : Int8) :
    Procedure Register :=
  match Register.ofField? field with
  | some register => pure register
  | none => throw (.invalidRegister instruction.opcode field)

def readField (instruction : Instruction) (field : Int8) :
    Procedure Int32 := do
  let register ← instruction.requireRegister field
  return (← get).registers.read register

/-- Whether the condition of a branch holds.  The second source register is
read only where the condition compares it with the first. -/
def testCondition (instruction : Instruction) (condition : BranchCondition) :
    Procedure Bool := do
  let first ← instruction.readField instruction.rs
  if condition.comparesRegisters then
    let second ← instruction.readField instruction.rt
    return condition.holds first second
  else
    return condition.holds first 0

def effectiveAddress (instruction : Instruction) : Procedure Int := do
  let base ← instruction.readField instruction.rs
  return base.toInt + instruction.immediate.toInt

def requireAddress (target : Int) : Procedure Nat :=
  match addressOfTarget target with
  | .ok address => pure address
  | .error fault => throw fault

/-- Carry out the action of an instruction at `pc`, up to the handover to the
next instruction. -/
def carryOut (instruction : Instruction) (pc : Nat) : Procedure Handover :=
  let next := Handover.goTo (pc + 1)
  match instruction.opcode.action with
  | .idle => pure next
  | .pause => do
      modify (·.appendLog .paused)
      modify Machine.countBreakpoint
      return { next with outcome := .pause }
  | .compute operation => do
      let destination ← instruction.requireRegister instruction.rd
      let first ← instruction.readField instruction.rs
      let second ← instruction.readField instruction.rt
      let result ← operation.compute first second
      modify (·.setRegister destination result)
      return next
  | .computeImmediate operation => do
      let destination ← instruction.requireRegister instruction.rd
      let first ← instruction.readField instruction.rs
      let result ← operation.compute first instruction.immediate
      modify (·.setRegister destination result)
      return next
  | .loadUpper => do
      let destination ← instruction.requireRegister instruction.rd
      modify (·.setRegister destination (instruction.immediate <<< 16))
      return next
  | .loadImmediate => do
      let destination ← instruction.requireRegister instruction.rd
      modify (·.setRegister destination instruction.immediate)
      return next
  | .copy => do
      let destination ← instruction.requireRegister instruction.rd
      let value ← instruction.readField instruction.rs
      modify (·.setRegister destination value)
      return next
  | .branch condition => do
      let holds ← instruction.testCondition condition
      if holds then
        let address ← requireAddress (instruction.branchDestination pc)
        return { Handover.goTo address with taken := true }
      else
        return next
  | .jump => do
      let address ← requireAddress instruction.jumpDestination
      return Handover.goTo address
  | .jumpAndLink => do
      let address ← requireAddress instruction.jumpDestination
      modify (·.setRegister Register.returnAddress (returnAddress pc))
      return Handover.goTo address
  | .jumpRegister => do
      let target ← instruction.readField instruction.rs
      let address ← requireAddress target.toInt
      return Handover.goTo address
  | .jumpRegisterAndLink => do
      let destination ← instruction.requireRegister instruction.rd
      let target ← instruction.readField instruction.rs
      let address ← requireAddress target.toInt
      modify (·.setRegister destination (returnAddress pc))
      return Handover.goTo address
  | .load kind => do
      let destination ← instruction.requireRegister instruction.rd
      let address ← instruction.effectiveAddress
      let value ← kind.fetch address
      modify (·.setRegister destination value)
      return next
  | .store kind => do
      let value ← instruction.readField instruction.rt
      let address ← instruction.effectiveAddress
      kind.write address value
      return next
  | .print => do
      let value ← instruction.readField instruction.rs
      modify (·.appendLog (.value value))
      return next

def perform (instruction : Instruction) : Procedure Outcome := do
  let handover ← instruction.carryOut (← get).pc
  modify (·.retire instruction.opcode handover)
  return handover.outcome

end Instruction

end MiniMips
