import MiniMips.Proofs.Instruction.Plain
import MiniMips.Proofs.Machine.Alu
import MiniMips.Proofs.Machine.Bytes
import MiniMips.Proofs.Machine.InPlace

/-!
Contract: exactly when an instruction faults, and which operands it looks at.

Owns:
- the conditions under which an instruction faults, told from its operation and
  in integers, in the order in which they count;
- that executing an instruction faults under these conditions and no others;
- that two instructions that agree in the operands of their shape are executed
  alike, whatever the fields hold that the shape does not name.

The conditions know nothing of actions: they look at an operation by name, and
the definition of its effect looks at it by its action.  What ties the two
together is seen operation by operation in a few tables, and nowhere else.
-/

namespace MiniMips

/-- How many bytes of memory an operation accesses, if it accesses any. -/
def Opcode.accessWidth? : Opcode → Option Nat
  | .lw | .sw => some 4
  | .lb | .lbu | .sb => some 1
  | _ => none

/-- Whether the condition of a branch holds of the contents of its source
registers.  Operations that are no branches have no condition. -/
def Opcode.conditionHolds (opcode : Opcode) (first second : Int) : Bool :=
  match opcode with
  | .beq => decide (first = second)
  | .bne => decide (first ≠ second)
  | .bgez => decide (0 ≤ first)
  | .bgtz => decide (0 < first)
  | .blez => decide (first ≤ 0)
  | .bltz => decide (first < 0)
  | _ => false

namespace Instruction

/-- Contents of the register of a field, as a signed number. -/
def contents (machine : Machine) (field : Int8) : Int :=
  (machine.registers.read (registerOfField field)).toInt

/-- Whether an instruction is a branch whose condition holds. -/
def isTaken (instruction : Instruction) (machine : Machine) : Bool :=
  instruction.opcode.conditionHolds (contents machine instruction.rs)
    (contents machine instruction.rt)

/-! ## The conditions -/

/-- Some field that the operand shape names is no register index.  The first
one counts, in the order of the operands. -/
def registerFault? (instruction : Instruction) : Option ExecutionFault :=
  (instruction.usedFields.find? (fun field =>
    decide (¬IsRegisterIndex field))).map
      (ExecutionFault.invalidRegister instruction.opcode)

/-- A divisor is zero. -/
def divisionFault? (instruction : Instruction) (machine : Machine) :
    Option ExecutionFault :=
  if (instruction.opcode = .div ∨ instruction.opcode = .divu) ∧
      contents machine instruction.rt = 0 then
    some .divisionByZero
  else
    none

/-- Some byte of an access lies outside the memory, or a word is not aligned. -/
def accessFault? (instruction : Instruction) (machine : Machine) :
    Option ExecutionFault :=
  let address := contents machine instruction.rs + instruction.immediate.toInt
  match instruction.opcode.accessWidth? with
  | none => none
  | some width =>
      if address < 0 ∨ (machine.memory.size : Int) < address + width then
        some (.memoryOutOfBounds address width machine.memory.size)
      else if width = 4 ∧ ¬(4 : Int) ∣ address then
        some (.misalignedAccess address width)
      else
        none

/-- Where an instruction asks to go, if it asks to go anywhere else than to the
next one. -/
def transfer? (instruction : Instruction) (machine : Machine) : Option Int :=
  if instruction.opcode = .j ∨ instruction.opcode = .jal then
    some instruction.immediate.toInt
  else if instruction.opcode = .jr ∨ instruction.opcode = .jalr then
    some (contents machine instruction.rs)
  else if instruction.isTaken machine then
    some (machine.pc + 1 + instruction.immediate.toInt)
  else
    none

/-- A transfer goes before the start of the program. -/
def transferFault? (instruction : Instruction) (machine : Machine) :
    Option ExecutionFault :=
  match instruction.transfer? machine with
  | none => none
  | some target =>
      if target < 0 then some (.invalidJumpTarget target) else none

/-- The fault of an instruction: that of the first condition that is met. -/
def fault? (instruction : Instruction) (machine : Machine) :
    Option ExecutionFault :=
  instruction.registerFault?.or <|
    (instruction.divisionFault? machine).or <|
      (instruction.accessFault? machine).or <|
        instruction.transferFault? machine

end Instruction

/-- Why the instruction at the program counter cannot be executed: there is
none, or it faults. -/
def Machine.error? (instructions : Array Instruction) (machine : Machine) :
    Option ExecutionError :=
  match instructions[machine.pc]? with
  | none => some (.outsideProgram machine.pc instructions.size)
  | some instruction =>
      (instruction.fault? machine).map (.fault instruction.line)

/-! ## Operations and their actions -/

theorem Opcode.divides_iff (opcode : Opcode) :
    (opcode = .div ∨ opcode = .divu) ↔
      opcode.action = .compute .div ∨ opcode.action = .compute .divu := by
  cases opcode <;> decide

theorem Opcode.not_divides_immediate {opcode : Opcode}
    {operation : AluOperation}
    (acts : opcode.action = .computeImmediate operation) :
    ¬(operation = .div ∨ operation = .divu) := by
  cases opcode <;> cases acts <;> decide

theorem Opcode.accessWidth?_eq (opcode : Opcode) :
    opcode.accessWidth? =
      match opcode.action with
      | .load kind => some kind.width
      | .store kind => some kind.width
      | _ => none := by
  cases opcode <;> rfl

theorem BranchCondition.holds_eq (condition : BranchCondition)
    (first second : Int32) :
    condition.holds first second =
      match condition with
      | .equal => decide (first.toInt = second.toInt)
      | .unequal => decide (first.toInt ≠ second.toInt)
      | .nonnegative => decide (0 ≤ first.toInt)
      | .positive => decide (0 < first.toInt)
      | .nonpositive => decide (first.toInt ≤ 0)
      | .negative => decide (first.toInt < 0) := by
  cases condition <;>
    simp [holds, Int32.toInt_inj, Int32.le_iff_toInt_le, Int32.lt_iff_toInt_lt]

theorem Opcode.conditionHolds_eq (opcode : Opcode) (first second : Int32) :
    opcode.conditionHolds first.toInt second.toInt =
      match opcode.action with
      | .branch condition => condition.holds first second
      | _ => false := by
  cases opcode <;>
    simp [conditionHolds, action, BranchCondition.holds_eq]

/-! ## Accesses -/

/-- The fault of an access that is refused. -/
def refusedAccess? {α : Type} (address : Int) (width limit : Nat) :
    Except AccessFault α → Option ExecutionFault
  | .error fault => some (fault.executionFault address width limit)
  | .ok _ => none

/-- A load is refused where the access is. -/
theorem LoadKind.refusedAccess?_read (kind : LoadKind) (memory : Memory)
    (address : Int) (width limit : Nat) :
    refusedAccess? address width limit (kind.read memory address) =
      refusedAccess? address width limit
        (memory.locate address kind.width) := by
  cases kind with
  | word =>
      unfold read LoadKind.width Memory.readWord
      cases memory.locate address Memory.wordWidth <;> rfl
  | signedByte =>
      unfold read LoadKind.width Memory.readByte
      cases memory.locate address 1 <;> rfl
  | unsignedByte =>
      unfold read LoadKind.width Memory.readByte
      cases memory.locate address 1 <;> rfl

namespace Instruction

variable {instruction : Instruction} {machine : Machine}

/-! ## The conditions, by action -/

theorem divisionFault?_eq (instruction : Instruction) (machine : Machine) :
    instruction.divisionFault? machine =
      match instruction.opcode.action with
      | .compute operation =>
          if (operation = .div ∨ operation = .divu) ∧
              machine.registers.read (registerOfField instruction.rt) = 0 then
            some .divisionByZero
          else
            none
      | _ => none := by
  have zero : contents machine instruction.rt = 0 ↔
      machine.registers.read (registerOfField instruction.rt) = 0 := by
    rw [contents, ← Int32.toInt_zero, Int32.toInt_inj]
  simp only [divisionFault?, Opcode.divides_iff, zero]
  cases instruction.opcode.action <;> simp

theorem accessFault?_eq_of_width {width : Nat}
    (accesses : instruction.opcode.accessWidth? = some width)
    (machine : Machine) :
    instruction.accessFault? machine =
      let address := contents machine instruction.rs +
        instruction.immediate.toInt
      refusedAccess? address width machine.memory.size
        (machine.memory.locate address width) := by
  have widths : width = 1 ∨ width = 4 := by
    revert accesses
    cases instruction.opcode <;> simp +contextual [Opcode.accessWidth?, eq_comm]
  unfold accessFault?
  generalize contents machine instruction.rs + instruction.immediate.toInt =
    address
  have unaligned : (1 < width ∧ ¬(width : Int) ∣ address) ↔
      (width = 4 ∧ ¬(4 : Int) ∣ address) := by
    rcases widths with rfl | rfl <;> simp
  simp only [accesses, Memory.locate_eq, unaligned]
  split
  · rfl
  split
  · rfl
  · rfl

theorem isTaken_eq (instruction : Instruction) (machine : Machine) :
    instruction.isTaken machine =
      match instruction.opcode.action with
      | .branch condition =>
          condition.holds
            (machine.registers.read (registerOfField instruction.rs))
            (machine.registers.read (registerOfField instruction.rt))
      | _ => false :=
  Opcode.conditionHolds_eq _ _ _

theorem transfer?_eq (instruction : Instruction) (machine : Machine) :
    instruction.transfer? machine =
      match instruction.opcode.action with
      | .branch condition =>
          if condition.holds
              (machine.registers.read (registerOfField instruction.rs))
              (machine.registers.read (registerOfField instruction.rt)) then
            some (instruction.branchDestination machine.pc)
          else
            none
      | .jump | .jumpAndLink => some instruction.jumpDestination
      | .jumpRegister | .jumpRegisterAndLink =>
          some (contents machine instruction.rs)
      | _ => none := by
  unfold transfer?
  rw [isTaken_eq]
  cases instruction.opcode <;> rfl

/-! ## Faults and effects -/

theorem addressOfTarget_eq (target : Int) :
    addressOfTarget target =
      if target < 0 then .error (.invalidJumpTarget target)
      else .ok target.toNat := by
  cases target with
  | ofNat address => rfl
  | negSucc predecessor =>
      rw [if_pos (Int.negSucc_lt_zero predecessor)]
      rfl

/-- What ends in a transfer faults when the transfer goes too far back. -/
theorem transferred_eq_error_iff {target : Int} {effectAt : Nat → Effect}
    {fault : ExecutionFault} :
    (match addressOfTarget target with
      | .error fault => .error fault
      | .ok address => .ok (effectAt address)) =
        (.error fault : Except ExecutionFault Effect) ↔
      (if target < 0 then some (.invalidJumpTarget target) else none) =
        some fault := by
  rw [addressOfTarget_eq]
  by_cases negative : target < 0 <;> simp [negative]

/-- What ends in a computation faults when a divisor is zero. -/
theorem computed_eq_error_iff {operation : AluOperation} {left right : Int32}
    {effectOf : Int32 → Effect} {fault : ExecutionFault} :
    (match Alu.execute operation left right with
      | some result => .ok (effectOf result)
      | none => .error .divisionByZero) =
        (.error fault : Except ExecutionFault Effect) ↔
      (if (operation = .div ∨ operation = .divu) ∧ right = 0 then
        some .divisionByZero
      else
        none) = some fault := by
  have undefined := Alu.execute_eq_none_iff operation left right
  cases result : Alu.execute operation left right with
  | none => simp [undefined.mp result]
  | some value =>
      rw [if_neg (fun divides => by simp [undefined.mpr divides] at result)]
      simp

/-- An instruction whose register fields name registers faults when a divisor
is zero, an access is refused, or a transfer goes too far back. -/
theorem actionEffect_eq_error_iff {fault : ExecutionFault} :
    instruction.actionEffect machine = .error fault ↔
      (instruction.divisionFault? machine).or
        ((instruction.accessFault? machine).or
          (instruction.transferFault? machine)) = some fault := by
  have width := instruction.opcode.accessWidth?_eq
  have division := instruction.divisionFault?_eq machine
  have transfer := instruction.transfer?_eq machine
  -- Only loads and stores access memory; for the others nothing is refused.
  have noAccess : instruction.opcode.accessWidth? = none →
      instruction.accessFault? machine = none := by
    intro none
    simp only [accessFault?, none]
  unfold actionEffect transferFault?
  cases acts : instruction.opcode.action with
  | compute operation =>
      simp only [acts] at width division transfer
      simp only [division, noAccess width, transfer, Option.or_none]
      exact computed_eq_error_iff
  | computeImmediate operation =>
      simp only [acts] at width division transfer
      simp only [division, noAccess width, transfer, Option.or_none]
      refine computed_eq_error_iff.trans ?_
      rw [if_neg (fun divides =>
        Opcode.not_divides_immediate acts divides.1)]
  | branch condition =>
      simp only [acts] at width division transfer
      simp only [division, noAccess width, transfer, Option.none_or]
      split
      · exact transferred_eq_error_iff
      · simp
  | jump | jumpAndLink | jumpRegister | jumpRegisterAndLink =>
      simp only [acts] at width division transfer
      simp only [division, noAccess width, transfer, Option.none_or]
      exact transferred_eq_error_iff
  | load kind =>
      simp only [acts] at width division transfer
      simp only [division, accessFault?_eq_of_width width, transfer,
        Option.none_or, Option.or_none, contents,
        ← LoadKind.refusedAccess?_read]
      generalize kind.read machine.memory _ = access
      cases access <;> simp [refusedAccess?]
  | store kind =>
      simp only [acts] at width division transfer
      simp only [division, accessFault?_eq_of_width width, transfer,
        Option.none_or, Option.or_none, contents]
      generalize machine.memory.locate _ _ = access
      cases access <;> simp [refusedAccess?]
  | idle | pause | loadUpper | loadImmediate | copy | print =>
      simp only [acts] at width division transfer
      simp [division, noAccess width, transfer]

/-- **Fault conditions.**  An instruction faults under its first condition that
is met, and is executed where none is. -/
theorem effect_eq_error_iff {fault : ExecutionFault} :
    instruction.effect machine = .error fault ↔
      instruction.fault? machine = some fault := by
  unfold effect fault? registerFault? invalidField?
  simp only [← Register.ofField?_isNone_iff, Bool.decide_eq_true]
  cases instruction.usedFields.find? (fun field =>
      (Register.ofField? field).isNone) with
  | some field => simp
  | none =>
      simp only [Option.map_none, Option.none_or]
      exact actionEffect_eq_error_iff

/-- An instruction whose register fields all name registers has the effect of
its action. -/
theorem NamesRegisters.effect_eq (names : instruction.NamesRegisters) :
    instruction.effect machine = instruction.actionEffect machine := by
  have valid : instruction.invalidField? = none := by
    refine List.find?_eq_none.mpr fun field used => ?_
    rw [Register.ofField?_isNone_iff]
    exact not_not_intro (names field used)
  simp only [effect, valid]

/-- Only the check of the register fields reports an invalid register. -/
theorem NamesRegisters.fault?_ne (names : instruction.NamesRegisters)
    (opcode : Opcode) (field : Int8) :
    instruction.fault? machine ≠ some (.invalidRegister opcode field) := by
  have noRegister : instruction.registerFault? = none := by
    unfold registerFault?
    rw [Option.map_eq_none_iff, List.find?_eq_none]
    intro used member
    simp [names used member]
  have noDivision : instruction.divisionFault? machine ≠
      some (.invalidRegister opcode field) := by
    unfold divisionFault?
    split <;> simp
  have noAccess : instruction.accessFault? machine ≠
      some (.invalidRegister opcode field) := by
    unfold accessFault?
    generalize contents machine instruction.rs +
      instruction.immediate.toInt = address
    split
    · simp
    dsimp only
    split
    · simp
    split <;> simp
  have noTransfer : instruction.transferFault? machine ≠
      some (.invalidRegister opcode field) := by
    unfold transferFault?
    split
    · simp
    split <;> simp
  rw [fault?, noRegister, Option.none_or]
  simp [Option.or_eq_some_iff, noDivision, noAccess, noTransfer]

/-- A transfer to an address of the program or after it is carried out. -/
theorem actionEffect_of_transfer {destination : Nat}
    (transfers : instruction.transfer? machine = some (destination : Int)) :
    ∃ effect, instruction.actionEffect machine = .ok effect ∧
      effect.pc = destination := by
  have reached : addressOfTarget (destination : Int) = .ok destination := rfl
  rw [transfer?_eq] at transfers
  unfold actionEffect
  cases acts : instruction.opcode.action with
  | branch condition =>
      simp only [acts] at transfers
      split at transfers
      next taken =>
        simp only [taken, if_true, Option.some.inj transfers, reached]
        exact ⟨_, rfl, rfl⟩
      next => contradiction
  | jump | jumpAndLink =>
      simp only [acts] at transfers
      simp only [Option.some.inj transfers, reached]
      exact ⟨_, rfl, rfl⟩
  | jumpRegister | jumpRegisterAndLink =>
      simp only [acts, contents] at transfers
      simp only [Option.some.inj transfers, reached]
      exact ⟨_, rfl, rfl⟩
  | _ => simp [acts] at transfers

/-! ## Operands -/

/-- The effect of an instruction depends on its plain form alone. -/
theorem effect_plain (instruction : Instruction) (machine : Machine) :
    instruction.plain.effect machine = instruction.effect machine := by
  cases instruction with
  | mk opcode rd rs rt immediate line label? =>
      cases opcode <;>
        dsimp only [plain, shape, Opcode.shape, OperandShape.slots, List.foldl,
          copySlot, bare] <;>
        rfl

end Instruction

namespace Machine

variable {instructions : Array Instruction} {machine : Machine}

theorem step_eq_error_iff {executionError : ExecutionError} :
    machine.step instructions = .error executionError ↔
      machine.error? instructions = some executionError := by
  unfold step error?
  cases instructions[machine.pc]? with
  | none => simp
  | some instruction =>
      cases effects : instruction.effect machine with
      | error fault =>
          simp [effects, Instruction.effect_eq_error_iff.mp effects]
      | ok effect =>
          have fine : instruction.fault? machine = none := by
            cases faults : instruction.fault? machine with
            | none => rfl
            | some fault =>
                rw [Instruction.effect_eq_error_iff.mpr faults] at effects
                contradiction
          simp [effects, fine]

/-- An instruction of a program whose register fields name registers fails with
a fault of its own, which is never that of a register. -/
theorem execute_error_of_namesRegisters {executionError : ExecutionError}
    {stopped : Machine}
    (names : ∀ instruction ∈ instructions, instruction.NamesRegisters)
    (inside : machine.pc < instructions.size)
    (failed : machine.execute instructions = .error executionError stopped) :
    ∃ instruction cause, instructions[machine.pc]? = some instruction ∧
      executionError = .fault instruction.line cause ∧
      instruction.fault? machine = some cause ∧
      ∀ opcode field, cause ≠ .invalidRegister opcode field := by
  obtain ⟨fails, _⟩ := execute_eq_error_iff.mp failed
  have error := step_eq_error_iff.mp fails
  have present : instructions[machine.pc]? = some instructions[machine.pc] :=
    Array.getElem?_eq_getElem inside
  rw [error?, present] at error
  obtain ⟨cause, faults, same⟩ := Option.map_eq_some_iff.mp error
  refine ⟨instructions[machine.pc], cause, present, same.symm, faults, ?_⟩
  rintro opcode field rfl
  exact (names _ (Array.getElem_mem inside)).fault?_ne opcode field faults

theorem execute_setIfInBounds {instruction other : Instruction}
    (present : instructions[machine.pc]? = some instruction)
    (same : instruction.SameOperands other) :
    machine.execute (instructions.setIfInBounds machine.pc other) =
      machine.execute instructions := by
  have inside : machine.pc < instructions.size :=
    (Array.getElem?_eq_some_iff.mp present).1
  have replaced :
      (instructions.setIfInBounds machine.pc other)[machine.pc]? =
        some other := by
    simp [inside]
  have effects : other.effect machine = instruction.effect machine := by
    rw [← other.effect_plain, ← same.plain_eq, instruction.effect_plain]
  simp only [execute_eq_step, step, present, replaced, effects, same.opcode,
    same.line]

/-- **Faults and operands.**  An instruction cannot be executed exactly under
the conditions above, of which the first one that is met is reported; and an
instruction with the same operands is executed alike, whatever stands in the
fields that its shape does not name. -/
theorem execute_fault_conditions (instructions : Array Instruction)
    (machine : Machine) :
    (∀ executionError stopped,
      machine.execute instructions = .error executionError stopped ↔
        machine.error? instructions = some executionError ∧
          stopped = machine) ∧
    (∀ instruction other, instructions[machine.pc]? = some instruction →
      instruction.SameOperands other →
      machine.execute (instructions.setIfInBounds machine.pc other) =
        machine.execute instructions) := by
  refine ⟨?_, fun instruction other => execute_setIfInBounds⟩
  intro executionError stopped
  rw [execute_eq_error_iff, step_eq_error_iff]

/-- A division by zero whose dividend is no register: the register counts. -/
theorem execute_fault_conditions_overlapping :
    let machine :=
      fresh { Configuration.standard with memory := ⟨8, none⟩ }
    let division := { Instruction.bare .div 4 with rd := 8, rs := 32, rt := 0 }
    let other := { division with immediate := 7, label? := some "again" }
    machine.execute #[division] =
        .error (.fault 4 (.invalidRegister .div 32)) machine ∧
      machine.execute #[other] =
        .error (.fault 4 (.invalidRegister .div 32)) machine := by
  intro machine division other
  obtain ⟨faults, ignores⟩ := execute_fault_conditions #[division] machine
  have faulted : machine.execute #[division] =
      .error (.fault 4 (.invalidRegister .div 32)) machine :=
    (faults _ _).mpr ⟨rfl, rfl⟩
  have same : division.SameOperands other := by
    refine ⟨rfl, rfl, ?_⟩
    simp [division, other, Instruction.shape, Instruction.bare, Opcode.shape,
      OperandShape.slots, Instruction.AgreeAt]
  exact ⟨faulted, (ignores division other rfl same).trans faulted⟩

end Machine

end MiniMips
