import MiniMips.Machine.Alu
import MiniMips.Opcode

/-!
Contract: what each operation does when it is executed.

Owns: the few kinds of action that all operations come down to, and the action
of each operation.

Does not own: carrying an action out on a machine.
-/

namespace MiniMips

/-- The condition of a branch, on the values of its two source registers.  The
last four look at the first value only. -/
inductive BranchCondition where
  | equal
  | unequal
  | nonnegative
  | positive
  | nonpositive
  | negative
deriving DecidableEq, Repr

def BranchCondition.holds (condition : BranchCondition) (first second : Int32) :
    Bool :=
  match condition with
  | .equal => decide (first = second)
  | .unequal => decide (first ≠ second)
  | .nonnegative => decide (0 ≤ first)
  | .positive => decide (0 < first)
  | .nonpositive => decide (first ≤ 0)
  | .negative => decide (first < 0)

/-- What a load takes from memory and how it fills a word. -/
inductive LoadKind where
  | word
  | signedByte
  | unsignedByte
deriving DecidableEq, Repr

inductive StoreKind where
  | word
  | byte
deriving DecidableEq, Repr

/-- What executing an operation does. -/
inductive Action where
  | idle
  | pause
  /-- Combine the two source registers. -/
  | compute (operation : AluOperation)
  /-- Combine the first source register with the immediate. -/
  | computeImmediate (operation : AluOperation)
  /-- Set a register to the immediate moved to the upper half. -/
  | loadUpper
  | loadImmediate
  | copy
  /-- Go to a place relative to the next instruction if a condition holds. -/
  | branch (condition : BranchCondition)
  | jump
  /-- Go to an instruction index and keep the return address in `$ra`. -/
  | jumpAndLink
  | jumpRegister
  /-- Go where a register says and keep the return address in a register. -/
  | jumpRegisterAndLink
  | load (kind : LoadKind)
  | store (kind : StoreKind)
  | print
deriving DecidableEq, Repr

/-- What executing an operation does.  Signed and unsigned sums and differences
are the same, since nothing traps on overflow. -/
def Opcode.action : Opcode → Action
  | .nop => .idle
  | .breakpoint => .pause
  | .add | .addu => .compute .add
  | .sub | .subu => .compute .sub
  | .mul => .compute .mul
  | .div => .compute .div
  | .divu => .compute .divu
  | .and => .compute .and
  | .or => .compute .or
  | .xor => .compute .xor
  | .nor => .compute .nor
  | .slt => .compute .slt
  | .sltu => .compute .sltu
  | .sllv => .compute .sll
  | .srlv => .compute .srl
  | .srav => .compute .sra
  | .addi | .addiu => .computeImmediate .add
  | .andi => .computeImmediate .and
  | .ori => .computeImmediate .or
  | .xori => .computeImmediate .xor
  | .slti => .computeImmediate .slt
  | .sll => .computeImmediate .sll
  | .srl => .computeImmediate .srl
  | .sra => .computeImmediate .sra
  | .lui => .loadUpper
  | .li => .loadImmediate
  | .move => .copy
  | .beq => .branch .equal
  | .bne => .branch .unequal
  | .bgez => .branch .nonnegative
  | .bgtz => .branch .positive
  | .blez => .branch .nonpositive
  | .bltz => .branch .negative
  | .j => .jump
  | .jal => .jumpAndLink
  | .jr => .jumpRegister
  | .jalr => .jumpRegisterAndLink
  | .lw => .load .word
  | .lb => .load .signedByte
  | .lbu => .load .unsignedByte
  | .sw => .store .word
  | .sb => .store .byte
  | .print => .print

end MiniMips
