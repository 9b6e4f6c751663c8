import MiniMips.Proofs.Machine.EffectParts
import MiniMips.Proofs.Machine.Footprint

/-!
Contract: what the execution of one instruction may change.

Owns:
- the register, the range of memory and the output of an operation, told from
  its name and its operand shape;
- that an instruction which is executed changes nothing else but the counters,
  and goes where it transfers control or to the next instruction.

A destination that is the zero register is never set, so the cell of this
register stays zero.
-/

namespace MiniMips

/-- How many bytes of memory an operation writes. -/
def Opcode.storedWidth : Opcode → Nat
  | .sw => 4
  | .sb => 1
  | _ => 0

namespace Instruction

/-- The register that an instruction may change: `$ra` for `jal`, and
otherwise the one in its destination slot. -/
def writtenRegister? (instruction : Instruction) : Option Register :=
  if instruction.opcode = .jal then
    some Register.returnAddress
  else if .rd ∈ instruction.shape.slots then
    Register.ofField? instruction.rd
  else
    none

/-- What an instruction puts out. -/
def shownText? (instruction : Instruction) (machine : Machine) :
    Option String :=
  match instruction.opcode with
  | .print => some (Numeral.ofInt (contents machine instruction.rs))
  | .breakpoint => some "Execution paused"
  | _ => none

/-- Whether two machines differ at most by what an instruction may change on
the first, apart from their counters.  Where the instruction goes is told by
the registers before it. -/
structure Changes (instruction : Instruction) (machine next : Machine) :
    Prop where
  registers : ∀ register,
    next.registers.cells.get register ≠
        machine.registers.cells.get register →
      instruction.writtenRegister? = some register ∧
        register ≠ Register.zero
  zero : next.registers.cells.get Register.zero = 0
  linked : instruction.opcode = .jal ∨ instruction.opcode = .jalr →
    ∃ register, instruction.writtenRegister? = some register ∧
      (register ≠ Register.zero →
        next.registers.cells.get register = Int32.ofNat (machine.pc + 1))
  memorySize : next.memory.size = machine.memory.size
  memory : ∀ index,
    next.memory.byteAt index ≠ machine.memory.byteAt index →
      contents machine instruction.rs + instruction.immediate.toInt ≤ index ∧
        index < contents machine instruction.rs +
          instruction.immediate.toInt + instruction.opcode.storedWidth
  log : ∃ entries, next.log.toList = machine.log.toList ++ entries ∧
    entries.map LogEntry.text = (instruction.shownText? machine).toList
  pc : (next.pc : Int) =
    (instruction.transfer? machine).getD (machine.pc + 1)

end Instruction

/-! ## Registers -/

theorem RegisterFile.get_write (file : RegisterFile)
    (register other : Register) (value : Int32) :
    (file.write register value).cells.get other =
      if register = other ∧ register ≠ Register.zero then value
      else file.cells.get other := by
  unfold write
  by_cases ignored : register = Register.zero
  · rw [if_pos ignored, if_neg (fun both => both.2 ignored)]
  · rw [if_neg ignored]
    show (file.cells.set register value)[other.val] = _
    rw [Vector.getElem_set]
    simp only [Fin.val_inj, ignored, ne_eq, not_false_eq_true, and_true]
    rfl

/-! ## Operations by name -/

theorem Opcode.storedWidth_of_action {opcode : Opcode} {kind : StoreKind}
    (acts : opcode.action = .store kind) : opcode.storedWidth = kind.width := by
  cases opcode <;> cases acts <;> rfl

theorem Opcode.action_of_links {opcode : Opcode}
    (links : opcode = .jal ∨ opcode = .jalr) :
    opcode.action = .jumpAndLink ∨ opcode.action = .jumpRegisterAndLink := by
  rcases links with rfl | rfl
  · exact .inl rfl
  · exact .inr rfl

namespace Instruction

variable {instruction : Instruction}

theorem NamesRegisters.ofField?_rd (names : instruction.NamesRegisters)
    (among : .rd ∈ instruction.shape.slots) :
    Register.ofField? instruction.rd =
      some (registerOfField instruction.rd) := by
  have valid : IsRegisterIndex instruction.rd := names.registerAt among
  cases named : Register.ofField? instruction.rd with
  | some register => rw [registerOfField, named, Option.getD_some]
  | none =>
      have refused := (Register.ofField?_isNone_iff instruction.rd).mp
        (Option.isNone_iff_eq_none.mpr named)
      exact absurd valid refused

theorem destination?_action (instruction : Instruction) (opcode : Opcode) :
    instruction.destination? opcode.action =
      if opcode = .jal then
        some Register.returnAddress
      else if .rd ∈ opcode.shape.slots then
        some (registerOfField instruction.rd)
      else
        none := by
  cases opcode <;> rfl

theorem NamesRegisters.writtenRegister?_eq
    (names : instruction.NamesRegisters) :
    instruction.writtenRegister? =
      instruction.destination? instruction.opcode.action := by
  rw [destination?_action]
  unfold writtenRegister? shape
  split
  · rfl
  split
  next among => exact names.ofField?_rd among
  next => rfl

theorem shownText?_eq (instruction : Instruction) (machine : Machine) :
    instruction.shownText? machine =
      (instruction.logged? machine instruction.opcode.action).map
        LogEntry.text := by
  unfold shownText?
  cases instruction.opcode <;> rfl

end Instruction

/-! ## Execution -/

namespace Machine

variable {machine : Machine} {instruction : Instruction} {effect : Effect}

theorem memory_apply_of_outside {index start : Nat} {bytes : List UInt8}
    (opcode : Opcode) (stored : effect.bytes? = some (start, bytes))
    (outside : index < start ∨ start + bytes.length ≤ index) :
    (machine.apply opcode effect).memory.byteAt index =
      machine.memory.byteAt index := by
  have memory : (machine.apply opcode effect).memory =
      machine.memory.setBytes start bytes := by
    unfold apply
    simp only [stored]
  rw [memory, Memory.byteAt_setBytes_of_outside _ outside]

/-- The cells that an effect leaves alone, and the one that it sets. -/
theorem registers_apply_of_some {register : Register} {value : Int32}
    (opcode : Opcode) (written : effect.register? = some (register, value))
    (other : Register) :
    (machine.apply opcode effect).registers.cells.get other =
      if register = other ∧ register ≠ Register.zero then value
      else machine.registers.cells.get other := by
  have registers : (machine.apply opcode effect).registers =
      machine.registers.write register value := by
    unfold apply
    simp only [written]
  rw [registers, RegisterFile.get_write]

theorem registers_apply_of_none (opcode : Opcode)
    (unwritten : effect.register? = none) :
    (machine.apply opcode effect).registers = machine.registers := by
  unfold apply
  simp only [unwritten]

end Machine

namespace Effect.MadeBy

variable {machine : Machine} {instruction : Instruction} {effect : Effect}

theorem registers_apply (made : effect.MadeBy instruction machine)
    (names : instruction.NamesRegisters) {register : Register}
    (changed : (machine.apply instruction.opcode effect).registers.cells.get
        register ≠ machine.registers.cells.get register) :
    instruction.writtenRegister? = some register ∧
      register ≠ Register.zero := by
  have destination := made.register?
  rw [← names.writtenRegister?_eq] at destination
  cases written : effect.register? with
  | none =>
      rw [Machine.registers_apply_of_none _ written] at changed
      contradiction
  | some pair =>
      rw [Machine.registers_apply_of_some _ written] at changed
      split at changed
      next set =>
        obtain ⟨rfl, notZero⟩ := set
        rw [written] at destination
        exact ⟨destination.symm, notZero⟩
      next => contradiction

theorem linked_apply (made : effect.MadeBy instruction machine)
    (names : instruction.NamesRegisters)
    (links : instruction.opcode = .jal ∨ instruction.opcode = .jalr) :
    ∃ register, instruction.writtenRegister? = some register ∧
      (register ≠ Register.zero →
        (machine.apply instruction.opcode effect).registers.cells.get
            register = Int32.ofNat (machine.pc + 1)) := by
  have destination := made.register?
  rw [← names.writtenRegister?_eq] at destination
  have address := made.linked (Opcode.action_of_links links)
  obtain ⟨⟨register, value⟩, written, stored⟩ :=
    Option.map_eq_some_iff.mp address
  rw [written] at destination
  refine ⟨register, destination.symm, fun notZero => ?_⟩
  rw [Machine.registers_apply_of_some _ written, if_pos ⟨rfl, notZero⟩]
  exact stored

theorem memory_apply (made : effect.MadeBy instruction machine) {index : Nat}
    (changed : (machine.apply instruction.opcode effect).memory.byteAt index ≠
      machine.memory.byteAt index) :
    instruction.accessAddress machine ≤ index ∧
      index < instruction.accessAddress machine +
        instruction.opcode.storedWidth := by
  have bytes := made.bytes?
  cases acts : instruction.opcode.action with
  | store kind =>
      rw [acts] at bytes
      obtain ⟨start, located⟩ := made.located kind acts
      obtain ⟨address, _⟩ := Memory.eq_of_locate located
      have width : (kind.bytes (machine.registers.read
          (Instruction.registerOfField instruction.rt))).length = kind.width :=
        length_bytesOfValue _ _
      rw [Opcode.storedWidth_of_action acts, ← width, address]
      by_contra outside
      refine changed
        (Machine.memory_apply_of_outside instruction.opcode bytes ?_)
      omega
  | _ =>
      rw [acts] at bytes
      refine absurd ?_ changed
      unfold Machine.apply
      simp only [bytes, Instruction.storedBytes?]

theorem log_apply (made : effect.MadeBy instruction machine) :
    ∃ entries, (machine.apply instruction.opcode effect).log.toList =
        machine.log.toList ++ entries ∧
      entries.map LogEntry.text =
        (instruction.shownText? machine).toList := by
  refine ⟨effect.entry?.toList, Machine.log_apply _ _ _, ?_⟩
  rw [made.logged, instruction.shownText?_eq]
  cases instruction.logged? machine instruction.opcode.action <;> rfl

end Effect.MadeBy

namespace Machine

/-- **Footprint.**  An instruction that is executed on a machine whose zero
register holds zero changes at most what its name and its operands say. -/
theorem execute_changes {instructions : Array Instruction}
    {machine next : Machine} {outcome : Outcome}
    (zero : machine.registers.cells.get Register.zero = 0)
    (executed : machine.execute instructions = .ok outcome next) :
    ∃ instruction, instructions[machine.pc]? = some instruction ∧
      instruction.Changes machine next := by
  obtain ⟨instruction, effect, present, effects, _, rfl⟩ :=
    execute_eq_ok_iff_effect.mp executed
  obtain ⟨names, made⟩ := Instruction.madeBy_of_effect effects
  refine ⟨instruction, present, ?_⟩
  constructor
  case registers =>
    intro register changed
    exact made.registers_apply names changed
  case zero =>
    by_contra changed
    rw [← zero] at changed
    exact (made.registers_apply names changed).2 rfl
  case linked => exact made.linked_apply names
  case memorySize =>
    exact memory_size_apply machine instruction.opcode effect
  case memory =>
    intro index changed
    exact made.memory_apply changed
  case log => exact made.log_apply
  case pc => exact made.pc

/-- A jump through the register that it links in, which is `$t1`. -/
theorem execute_changes_jalr :
    let machine :=
      (fresh { Configuration.standard with memory := ⟨8, none⟩ }).setRegister
        9 5
    let jump := { Instruction.bare .jalr 3 with rd := 9, rs := 9 }
    ∃ next, machine.execute #[jump] = .ok .proceed next ∧
      next.registers.cells.get 9 = 1 ∧ (next.pc : Int) = 5 ∧
      next.registers.cells.get 10 = machine.registers.cells.get 10 := by
  intro machine jump
  have zero : machine.registers.cells.get Register.zero = 0 := rfl
  obtain ⟨next, executed⟩ : ∃ next,
      machine.execute #[jump] = .ok .proceed next := ⟨_, rfl⟩
  obtain ⟨instruction, present, changes⟩ := execute_changes zero executed
  obtain rfl : jump = instruction :=
    Option.some.inj (show some jump = some instruction from present)
  have destination : jump.writtenRegister? = some 9 := rfl
  obtain ⟨register, written, linked⟩ := changes.linked (.inr rfl)
  obtain rfl : 9 = register := Option.some.inj (destination.symm.trans written)
  refine ⟨next, executed, linked (by decide), changes.pc, ?_⟩
  by_contra changed
  obtain ⟨other, _⟩ := changes.registers 10 changed
  rw [destination] at other
  contradiction

end Machine

end MiniMips
