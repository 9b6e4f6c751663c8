import MiniMips.Assembly.LabelTable
import MiniMips.Assembly.Operand
import MiniMips.Assembly.Statement
import MiniMips.Instruction

/-!
Contract: instruction statements and the instructions they denote.

Owns:
- which operands suit which slot, and filling a slot from its operand;
- the instruction of a statement at a given address, with every label known.

Operands are first compared with the whole shape.  Only when all of them suit
are they filled in, from left to right; a shift amount out of range, a label
that is nowhere declared, and a target that is neither a number nor a label are
refused then.
-/

namespace MiniMips

namespace OperandSlot

/-- Whether an operand may be written in a slot.  Anything may be written where
a target stands; what it is good for is seen when the slot is filled. -/
def accepts : OperandSlot → Operand → Bool
  | .rd, .register _ => true
  | .rs, .register _ => true
  | .rt, .register _ => true
  | .immediate, .immediate _ => true
  | .shiftAmount, .immediate _ => true
  | .memory, .memory _ _ => true
  | .branchTarget, _ => true
  | .jumpTarget, _ => true
  | _, _ => false

/-- Whether there is exactly one suitable operand for every slot. -/
def acceptAll : List OperandSlot → List Operand → Bool
  | [], [] => true
  | slot :: slots, operand :: operands =>
      slot.accepts operand && acceptAll slots operands
  | _, _ => false

end OperandSlot

namespace Instruction

def largestShift : Int32 := 31

/-- The fault of operands that do not suit an operation. -/
def mismatch (opcode : Opcode) (found : String) : ParseFault :=
  .operandMismatch opcode.mnemonic opcode.shape.template found

/-- Offset of a branch at `address` to an instruction index: it counts from the
next instruction. -/
def branchOffset (address destination : Nat) : Int32 :=
  Int32.ofNat destination - (Int32.ofNat address + 1)

/-- Write one operand into the slot it was accepted for. -/
def fill (labels : LabelTable) (address : Nat) (instruction : Instruction) :
    OperandSlot → Operand → Except ParseFault Instruction
  | .rd, .register index => .ok { instruction with rd := index.toInt8 }
  | .rs, .register index => .ok { instruction with rs := index.toInt8 }
  | .rt, .register index => .ok { instruction with rt := index.toInt8 }
  | .immediate, .immediate value => .ok { instruction with immediate := value }
  | .shiftAmount, .immediate value =>
      if 0 ≤ value ∧ value ≤ largestShift then
        .ok { instruction with immediate := value }
      else
        .error (.shiftOutOfRange value)
  | .memory, .memory offset base =>
      .ok { instruction with rs := base.toInt8, immediate := offset }
  | .branchTarget, .immediate value =>
      .ok { instruction with immediate := value }
  | .branchTarget, .symbol name =>
      match labels.resolve? name with
      | some destination =>
          .ok { instruction with immediate := branchOffset address destination }
      | none => .error (.unresolvedLabel name)
  | .jumpTarget, .immediate value => .ok { instruction with immediate := value }
  | .jumpTarget, .symbol name =>
      match labels.resolve? name with
      | some destination =>
          .ok { instruction with immediate := Int32.ofNat destination }
      | none => .error (.unresolvedLabel name)
  | _, operand => .error (mismatch instruction.opcode operand.text)

def fillAll (labels : LabelTable) (address : Nat) :
    Instruction → List OperandSlot → List Operand →
      Except ParseFault Instruction
  | instruction, slot :: slots, operand :: operands =>
      match instruction.fill labels address slot operand with
      | .error fault => .error fault
      | .ok filled => fillAll labels address filled slots operands
  | instruction, _, _ => .ok instruction

/-- The instruction of an operation with the given operand tokens, or why there
is none. -/
def ofOperands (labels : LabelTable) (address : Nat) (opcode : Opcode)
    (line : Nat) (tokens : List Token) : Except ParseFault Instruction :=
  match Operand.ofTokens? tokens with
  | none => .error (mismatch opcode (" ".intercalate (tokens.map Token.text)))
  | some operands =>
      if OperandSlot.acceptAll opcode.shape.slots operands then
        fillAll labels address
          { bare opcode line with label? := labels.nameAt? address }
          opcode.shape.slots operands
      else
        .error (mismatch opcode (", ".intercalate (operands.map Operand.text)))

/-- The instruction that a mnemonic and its operand tokens denote at an
address. -/
def decode (labels : LabelTable) (address : Nat) (mnemonic : String)
    (line : Nat) (tokens : List Token) : Except ParseError Instruction :=
  match Opcode.ofMnemonic? mnemonic.toList with
  | none => .error ⟨line, .unknownMnemonic mnemonic⟩
  | some opcode =>
      match ofOperands labels address opcode line tokens with
      | .error fault => .error ⟨line, fault⟩
      | .ok instruction => .ok instruction

end Instruction

end MiniMips
