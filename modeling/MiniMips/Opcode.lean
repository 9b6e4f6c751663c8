import MiniMips.Numeral

/-!
Contract: the operations of the machine.

Owns:
- the closed list of operations, their numeric codes and their mnemonics;
- looking an operation up by code and by mnemonic;
- the class of each operation, by which executed instructions are counted.

Does not own: the operands an operation takes and what executing it does.
-/

namespace MiniMips

/-- An operation of the machine.  `breakpoint` is written `break`. -/
inductive Opcode where
  | nop | add | addi | addiu | addu | and | andi | beq | bgez | bgtz | blez
  | bltz | bne | breakpoint | div | divu | j | jal | jalr | jr | lb | lbu
  | lui | lw | mul | nor | or | ori | print | sb | sll | sllv | slt | slti
  | sltu | sra | srav | srl | srlv | sub | subu | sw | xor | xori | li
  | move
deriving DecidableEq, Repr

inductive InstructionClass where
  | arithmetic
  | logic
  | shift
  | branch
  | jump
  | load
  | store
  | control
  | output
deriving DecidableEq, Repr

/-- A number that is the code of no operation. -/
structure UnknownOpcode where
  code : Nat
deriving DecidableEq, Repr

/-- Wording of a code that is not in use. -/
def UnknownOpcode.message (unknown : UnknownOpcode) : String :=
  "unknown opcode " ++ Numeral.ofNat unknown.code

namespace Opcode

/-- Every operation, in the order of the codes.  Codes are stable: a new
operation would be put at the end. -/
def all : List Opcode :=
  [.nop, .add, .addi, .addiu, .addu, .and, .andi, .beq, .bgez, .bgtz, .blez,
    .bltz, .bne, .breakpoint, .div, .divu, .j, .jal, .jalr, .jr, .lb, .lbu,
    .lui, .lw, .mul, .nor, .or, .ori, .print, .sb, .sll, .sllv, .slt, .slti,
    .sltu, .sra, .srav, .srl, .srlv, .sub, .subu, .sw, .xor, .xori, .li,
    .move]

/-- Numeric code of an operation: its position in the list of all of them. -/
def code (opcode : Opcode) : Nat :=
  all.idxOf opcode

def ofCode? (code : Nat) : Except UnknownOpcode Opcode :=
  match all[code]? with
  | some opcode => .ok opcode
  | none => .error ⟨code⟩

def mnemonic : Opcode → String
  | .nop => "nop"
  | .add => "add"
  | .addi => "addi"
  | .addiu => "addiu"
  | .addu => "addu"
  | .and => "and"
  | .andi => "andi"
  | .beq => "beq"
  | .bgez => "bgez"
  | .bgtz => "bgtz"
  | .blez => "blez"
  | .bltz => "bltz"
  | .bne => "bne"
  | .breakpoint => "break"
  | .div => "div"
  | .divu => "divu"
  | .j => "j"
  | .jal => "jal"
  | .jalr => "jalr"
  | .jr => "jr"
  | .lb => "lb"
  | .lbu => "lbu"
  | .lui => "lui"
  | .lw => "lw"
  | .mul => "mul"
  | .nor => "nor"
  | .or => "or"
  | .ori => "ori"
  | .print => "print"
  | .sb => "sb"
  | .sll => "sll"
  | .sllv => "sllv"
  | .slt => "slt"
  | .slti => "slti"
  | .sltu => "sltu"
  | .sra => "sra"
  | .srav => "srav"
  | .srl => "srl"
  | .srlv => "srlv"
  | .sub => "sub"
  | .subu => "subu"
  | .sw => "sw"
  | .xor => "xor"
  | .xori => "xori"
  | .li => "li"
  | .move => "move"

/-- The operation with a given mnemonic, in any ASCII case. -/
def ofMnemonic? (text : List Char) : Option Opcode :=
  let lowered := text.map Char.toLower
  all.find? (fun opcode => decide (opcode.mnemonic.toList = lowered))

def instructionClass : Opcode → InstructionClass
  | .add | .addi | .addiu | .addu | .div | .divu | .mul | .slt | .slti
  | .sltu | .sub | .subu | .lui | .li | .move => .arithmetic
  | .and | .andi | .nor | .or | .ori | .xor | .xori => .logic
  | .sll | .sllv | .sra | .srav | .srl | .srlv => .shift
  | .beq | .bgez | .bgtz | .blez | .bltz | .bne => .branch
  | .j | .jal | .jalr | .jr => .jump
  | .lb | .lbu | .lw => .load
  | .sb | .sw => .store
  | .nop | .breakpoint => .control
  | .print => .output

/-- Whether an operation transfers control relative to its own place, and only
on a condition. -/
def isBranch (opcode : Opcode) : Bool :=
  decide (opcode.instructionClass = .branch)

end Opcode

end MiniMips
