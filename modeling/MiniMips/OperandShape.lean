import MiniMips.Opcode

/-!
Contract: the operands that each operation takes, in the order in which they
are written.

Owns:
- the operand slots and the text that stands for each in a template;
- the operand shapes as lists of slots;
- the shape of every operation.

Does not own: operand values.
-/

namespace MiniMips

inductive OperandSlot where
  | rd
  | rs
  /-- The second source register, or the register that a store writes out. -/
  | rt
  | immediate
  /-- A number of bit positions. -/
  | shiftAmount
  /-- Where a branch goes, kept relative to the next instruction. -/
  | branchTarget
  /-- Where a jump goes, kept as an instruction index. -/
  | jumpTarget
  /-- An address: a number added to the first source register. -/
  | memory
deriving DecidableEq, Repr

def OperandSlot.template : OperandSlot → String
  | .rd => "$rd"
  | .rs => "$rs"
  | .rt => "$rt"
  | .immediate => "imm"
  | .shiftAmount => "shamt"
  | .branchTarget | .jumpTarget => "label"
  | .memory => "imm($rs)"

inductive OperandShape where
  | bare
  | rdRsRt
  | rdRsImm
  | rdRsShamt
  | rsRtTarget
  | rsTarget
  | target
  | rdRs
  | rs
  | rdImm
  | rdMem
  | rtMem
deriving DecidableEq, Repr

namespace OperandShape

/-- The slots of a shape in the order in which their operands are written. -/
def slots : OperandShape → List OperandSlot
  | .bare => []
  | .rdRsRt => [.rd, .rs, .rt]
  | .rdRsImm => [.rd, .rs, .immediate]
  | .rdRsShamt => [.rd, .rs, .shiftAmount]
  | .rsRtTarget => [.rs, .rt, .branchTarget]
  | .rsTarget => [.rs, .branchTarget]
  | .target => [.jumpTarget]
  | .rdRs => [.rd, .rs]
  | .rs => [.rs]
  | .rdImm => [.rd, .immediate]
  | .rdMem => [.rd, .memory]
  | .rtMem => [.rt, .memory]

/-- A shape as a reader of a diagnostic sees it. -/
def template (shape : OperandShape) : String :=
  ", ".intercalate (shape.slots.map OperandSlot.template)

end OperandShape

def Opcode.shape : Opcode → OperandShape
  | .nop | .breakpoint => .bare
  | .add | .addu | .and | .div | .divu | .mul | .nor | .or | .sllv | .slt
  | .sltu | .srav | .srlv | .sub | .subu | .xor => .rdRsRt
  | .addi | .addiu | .andi | .ori | .slti | .xori => .rdRsImm
  | .sll | .sra | .srl => .rdRsShamt
  | .beq | .bne => .rsRtTarget
  | .bgez | .bgtz | .blez | .bltz => .rsTarget
  | .j | .jal => .target
  | .jalr | .move => .rdRs
  | .jr | .print => .rs
  | .lui | .li => .rdImm
  | .lb | .lbu | .lw => .rdMem
  | .sb | .sw => .rtMem

end MiniMips
