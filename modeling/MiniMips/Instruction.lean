import MiniMips.Column
import MiniMips.OperandShape
import MiniMips.Register

/-!
Contract: decoded instructions and their assembly text.

Owns:
- the instruction record, whose register fields may name no register;
- the destinations of branches and direct jumps;
- the disassembly of an instruction, slot by slot of its shape.

Does not own: reading instructions from text and executing them.
-/

namespace MiniMips

/-- A decoded instruction.

The register fields are signed bytes, because an instruction may be built by
hand: a field names a register when it lies between 0 and 31.  A field that
the operation does not use holds `Instruction.unusedField`, which is not the
number of any register, and an unused immediate is zero. -/
structure Instruction where
  opcode : Opcode
  rd : Int8
  rs : Int8
  rt : Int8
  /-- Number, shift amount, branch offset, jump index or address offset. -/
  immediate : Int32
  /-- Source line, counted from one. -/
  line : Nat
  /-- The first label declared at the address of the instruction. -/
  label? : Option String
deriving DecidableEq, Repr

namespace Instruction

/-- What a register field holds when the operation does not use it. -/
def unusedField : Int8 := -1

/-- The instruction of an operation in which nothing is filled in. -/
def bare (opcode : Opcode) (line : Nat) : Instruction where
  opcode := opcode
  rd := unusedField
  rs := unusedField
  rt := unusedField
  immediate := 0
  line := line
  label? := none

def shape (instruction : Instruction) : OperandShape :=
  instruction.opcode.shape

/-- Register fields that the operation uses, in the order of its slots. -/
def usedFields (instruction : Instruction) : List Int8 :=
  instruction.shape.slots.filterMap fun
    | .rd => some instruction.rd
    | .rs | .memory => some instruction.rs
    | .rt => some instruction.rt
    | .immediate | .shiftAmount | .branchTarget | .jumpTarget => none

/-- Where a taken branch at `address` goes: its immediate counts from the next
instruction. -/
def branchDestination (instruction : Instruction) (address : Nat) : Int :=
  address + 1 + instruction.immediate.toInt

/-- Where a direct jump goes: its immediate is an instruction index. -/
def jumpDestination (instruction : Instruction) : Int :=
  instruction.immediate.toInt

/-- Destination of a branch or direct jump at `address`.  Other instructions
have none. -/
def target? (instruction : Instruction) (address : Nat) : Option Int :=
  match instruction.shape with
  | .rsRtTarget | .rsTarget => some (instruction.branchDestination address)
  | .target => some instruction.jumpDestination
  | _ => none

def fieldText (field : Int8) : String :=
  "$" ++ ((Register.ofField? field).map Register.name).getD "??"

def slotText (instruction : Instruction) : OperandSlot → String
  | .rd => fieldText instruction.rd
  | .rs => fieldText instruction.rs
  | .rt => fieldText instruction.rt
  | .immediate | .shiftAmount | .branchTarget | .jumpTarget =>
      Numeral.ofInt instruction.immediate.toInt
  | .memory =>
      Numeral.ofInt instruction.immediate.toInt ++ "(" ++
        fieldText instruction.rs ++ ")"

/-- Assembly text of an instruction without its label. -/
def disassembly (instruction : Instruction) : String :=
  match instruction.shape.slots with
  | [] => instruction.opcode.mnemonic
  | first :: rest =>
      instruction.opcode.mnemonic ++ " " ++
        ", ".intercalate ((first :: rest).map instruction.slotText)

/-- Assembly text of an instruction, with its label in front. -/
def text (instruction : Instruction) : String :=
  match instruction.label? with
  | some label => label ++ ": " ++ instruction.disassembly
  | none => instruction.disassembly

/-- Line of a program listing for the instruction at `address`. -/
def listingText (address : Nat) (instruction : Instruction) : String :=
  Column.alignRight 4 (Numeral.ofNat address) ++ "  [" ++
    Column.alignRight 2 (Numeral.ofNat instruction.opcode.code) ++ "] line " ++
    Column.alignLeft 4 (Numeral.ofNat instruction.line) ++ " " ++
    instruction.text ++ "\n"

end Instruction

end MiniMips
