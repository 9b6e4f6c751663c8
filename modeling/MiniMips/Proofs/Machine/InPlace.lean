import MiniMips.Machine.Execution

/-!
Contract: executing an instruction in place comes to its effect.

Owns:
- the register fields that each action reads, and that they are the ones the
  operand shape names;
- the rules by which a procedure comes to an effect, one for each operation;
- that every procedure of an instruction does, so that an instruction that
  faults has changed nothing.

The rules say what the order of the operations has to be: an operation that may
fault comes to the rest of the effect only when nothing has been changed before
it, and a change is followed by no operation that may fault.
-/

namespace MiniMips

theorem Statistics.record_recordBreakpoint (statistics : Statistics)
    (instructionClass : InstructionClass) (taken : Bool) :
    statistics.recordBreakpoint.record instructionClass taken =
      (statistics.record instructionClass taken).recordBreakpoint := by
  cases instructionClass <;> cases taken <;> rfl

/-- The two counts of a breakpoint may be made in either order. -/
theorem Machine.retire_countBreakpoint (machine : Machine) (opcode : Opcode)
    (handover : Handover) :
    machine.countBreakpoint.retire opcode handover =
      (machine.retire opcode handover).countBreakpoint := by
  unfold Machine.countBreakpoint Machine.retire
  rw [Statistics.record_recordBreakpoint]

/-- A condition that does not compare registers ignores the second one. -/
theorem BranchCondition.holds_congr {condition : BranchCondition}
    (ignores : condition.comparesRegisters = false)
    (first second other : Int32) :
    condition.holds first second = condition.holds first other := by
  cases condition with
  | equal => contradiction
  | unequal => contradiction
  | _ => rfl

namespace Instruction

/-! ## Register fields of an action -/

/-- Register fields that an action reads, in the order in which it does. -/
def fieldsOfAction (instruction : Instruction) : Action → List Int8
  | .idle | .pause | .jump | .jumpAndLink => []
  | .loadUpper | .loadImmediate => [instruction.rd]
  | .jumpRegister | .print => [instruction.rs]
  | .copy | .computeImmediate _ | .jumpRegisterAndLink | .load _ =>
      [instruction.rd, instruction.rs]
  | .store _ => [instruction.rt, instruction.rs]
  | .compute _ => [instruction.rd, instruction.rs, instruction.rt]
  | .branch condition =>
      instruction.rs ::
        if condition.comparesRegisters then [instruction.rt] else []

/-- The operand shape names exactly the fields that the action reads. -/
theorem usedFields_eq_fieldsOfAction (instruction : Instruction) :
    instruction.usedFields =
      instruction.fieldsOfAction instruction.opcode.action := by
  cases instruction with
  | mk opcode rd rs rt immediate line label? => cases opcode <;> rfl

/-- An effect that is had only when the given fields all name registers. -/
def requiring (instruction : Instruction) (fields : List Int8)
    (expected : Except ExecutionFault Effect) : Except ExecutionFault Effect :=
  match fields.find? (fun field => (Register.ofField? field).isNone) with
  | some field => .error (.invalidRegister instruction.opcode field)
  | none => expected

theorem effect_eq_requiring (instruction : Instruction) (machine : Machine) :
    instruction.effect machine =
      instruction.requiring
        (instruction.fieldsOfAction instruction.opcode.action)
        (instruction.actionEffect machine) := by
  unfold effect invalidField? requiring
  rewrite [usedFields_eq_fieldsOfAction]
  rfl

/-! ## Rules for procedures -/

/-- Hand over to the next instruction. -/
def handOver (instruction : Instruction) (handover : Handover) :
    Procedure Outcome := do
  modify (·.retire instruction.opcode handover)
  return handover.outcome

/-- A procedure, followed by the handover, comes to an effect: it faults when
there is none, with the machine as it was, and otherwise carries it out. -/
def ComesTo (instruction : Instruction) (machine : Machine)
    (procedure : Procedure Handover)
    (expected : Except ExecutionFault Effect) : Prop :=
  (procedure >>= instruction.handOver).run machine =
    match expected with
    | .error fault => .error fault machine
    | .ok effect =>
        .ok effect.outcome (machine.apply instruction.opcode effect)

variable {instruction : Instruction} {machine : Machine}

/-- An operation that leaves the machine alone comes to what follows it. -/
theorem ComesTo.of_run_ok {α : Type} {operation : Procedure α} {value : α}
    {next : α → Procedure Handover}
    {expected : Except ExecutionFault Effect}
    (runs : operation.run machine = .ok value machine)
    (rest : ComesTo instruction machine (next value) expected) :
    ComesTo instruction machine (operation >>= next) expected := by
  unfold ComesTo at rest ⊢
  rw [bind_assoc, EStateM.run_bind, runs]
  exact rest

/-- An operation that faults and leaves the machine alone comes to no
effect. -/
theorem ComesTo.of_run_error {α : Type} {operation : Procedure α}
    {fault : ExecutionFault} {next : α → Procedure Handover}
    (runs : operation.run machine = .error fault machine) :
    ComesTo instruction machine (operation >>= next) (.error fault) := by
  unfold ComesTo
  rw [bind_assoc, EStateM.run_bind, runs]

/-- Requiring a register comes before whatever else is required. -/
theorem ComesTo.requireRegister {field : Int8} {fields : List Int8}
    {next : Register → Procedure Handover}
    {expected : Except ExecutionFault Effect}
    (rest : ComesTo instruction machine (next (registerOfField field))
      (instruction.requiring fields expected)) :
    ComesTo instruction machine (instruction.requireRegister field >>= next)
      (instruction.requiring (field :: fields) expected) := by
  cases named : Register.ofField? field with
  | none =>
      have refused : instruction.requiring (field :: fields) expected =
          .error (.invalidRegister instruction.opcode field) := by
        simp [requiring, named]
      rw [refused]
      apply ComesTo.of_run_error
      rw [Instruction.requireRegister, named]
      rfl
  | some register =>
      have passed : instruction.requiring (field :: fields) expected =
          instruction.requiring fields expected := by
        simp [requiring, named]
      have found : registerOfField field = register := by
        simp [registerOfField, named]
      rw [passed]
      rw [found] at rest
      apply ComesTo.of_run_ok _ rest
      rw [Instruction.requireRegister, named]
      rfl

theorem ComesTo.readField {field : Int8} {fields : List Int8}
    {next : Int32 → Procedure Handover}
    {expected : Except ExecutionFault Effect}
    (rest : ComesTo instruction machine
      (next (machine.registers.read (registerOfField field)))
      (instruction.requiring fields expected)) :
    ComesTo instruction machine (instruction.readField field >>= next)
      (instruction.requiring (field :: fields) expected) := by
  unfold Instruction.readField
  rw [bind_assoc]
  apply ComesTo.requireRegister
  rw [bind_assoc]
  exact ComesTo.of_run_ok rfl (ComesTo.of_run_ok rfl rest)

theorem ComesTo.effectiveAddress {fields : List Int8}
    {next : Int → Procedure Handover}
    {expected : Except ExecutionFault Effect}
    (rest : ComesTo instruction machine
      (next ((machine.registers.read (registerOfField instruction.rs)).toInt +
        instruction.immediate.toInt))
      (instruction.requiring fields expected)) :
    ComesTo instruction machine (instruction.effectiveAddress >>= next)
      (instruction.requiring (instruction.rs :: fields) expected) := by
  unfold Instruction.effectiveAddress
  rw [bind_assoc]
  apply ComesTo.readField
  exact ComesTo.of_run_ok rfl rest

/-- A transfer to an address that may lie before the program. -/
theorem ComesTo.requireAddress {target : Int}
    {next : Nat → Procedure Handover} {effectAt : Nat → Effect}
    (rest : ∀ address, ComesTo instruction machine (next address)
      (.ok (effectAt address))) :
    ComesTo instruction machine (Instruction.requireAddress target >>= next)
      (match addressOfTarget target with
        | .error fault => .error fault
        | .ok address => .ok (effectAt address)) := by
  unfold Instruction.requireAddress
  cases addressOfTarget target with
  | error fault => exact ComesTo.of_run_error rfl
  | ok address => exact ComesTo.of_run_ok rfl (rest address)

/-- An operation of the unit, which may divide by zero. -/
theorem ComesTo.compute {operation : AluOperation} {left right : Int32}
    {next : Int32 → Procedure Handover} {effectOf : Int32 → Effect}
    (rest : ∀ result, ComesTo instruction machine (next result)
      (.ok (effectOf result))) :
    ComesTo instruction machine (operation.compute left right >>= next)
      (match Alu.execute operation left right with
        | some result => .ok (effectOf result)
        | none => .error .divisionByZero) := by
  unfold AluOperation.compute
  cases Alu.execute operation left right with
  | none => exact ComesTo.of_run_error rfl
  | some result => exact ComesTo.of_run_ok rfl (rest result)

theorem ComesTo.fetch {kind : LoadKind} {address : Int}
    {next : Int32 → Procedure Handover} {effectOf : Int32 → Effect}
    (rest : ∀ value, ComesTo instruction machine (next value)
      (.ok (effectOf value))) :
    ComesTo instruction machine (kind.fetch address >>= next)
      (match kind.read machine.memory address with
        | .error fault =>
            .error (fault.executionFault address kind.width
              machine.memory.size)
        | .ok value => .ok (effectOf value)) := by
  cases access : kind.read machine.memory address with
  | error fault =>
      apply ComesTo.of_run_error
      simp only [LoadKind.fetch, EStateM.run_bind, EStateM.run_get, access]
      rfl
  | ok value =>
      apply ComesTo.of_run_ok _ (rest value)
      simp only [LoadKind.fetch, EStateM.run_bind, EStateM.run_get, access]
      rfl

theorem ComesTo.write {kind : StoreKind} {address : Int} {word : Int32} :
    ComesTo instruction machine
      (kind.write address word >>= fun _ =>
        pure (Handover.goTo (machine.pc + 1)))
      (match machine.memory.locate address kind.width with
        | .error fault =>
            .error (fault.executionFault address kind.width
              machine.memory.size)
        | .ok start =>
            .ok ((Effect.goTo (machine.pc + 1)).storing start
              (kind.bytes word))) := by
  cases access : machine.memory.locate address kind.width with
  | error fault =>
      apply ComesTo.of_run_error
      simp only [StoreKind.write, EStateM.run_bind, EStateM.run_get, access]
      rfl
  | ok start =>
      unfold ComesTo
      simp only [StoreKind.write, EStateM.run_bind, EStateM.run_get, access]
      rfl

/-- A condition that does not compare registers may be told of any contents of
the second one. -/
theorem ComesTo.testCondition {condition : BranchCondition}
    {next : Bool → Procedure Handover}
    {expected : Except ExecutionFault Effect}
    (rest : ComesTo instruction machine
      (next (condition.holds
        (machine.registers.read (registerOfField instruction.rs))
        (machine.registers.read (registerOfField instruction.rt))))
      expected) :
    ComesTo instruction machine (instruction.testCondition condition >>= next)
      (instruction.requiring
        (instruction.fieldsOfAction (.branch condition)) expected) := by
  unfold Instruction.testCondition fieldsOfAction
  rw [bind_assoc]
  apply ComesTo.readField
  cases compares : condition.comparesRegisters with
  | true =>
      rw [if_pos rfl, if_pos rfl, bind_assoc]
      apply ComesTo.readField
      exact ComesTo.of_run_ok rfl rest
  | false =>
      rw [BranchCondition.holds_congr compares _ _ 0] at rest
      exact ComesTo.of_run_ok rfl rest

/-- The end of a branch.  Only a branch whose condition holds asks for the
address that it goes to. -/
theorem ComesTo.branch {holds : Bool} {target : Int} {next : Nat} :
    ComesTo instruction machine
      (if holds then do
        let address ← Instruction.requireAddress target
        return { Handover.goTo address with taken := true }
      else
        return Handover.goTo next)
      (if holds then
        match addressOfTarget target with
        | .error fault => .error fault
        | .ok address => .ok (Effect.branchTo address)
      else
        .ok (Effect.goTo next)) := by
  cases holds with
  | false => rfl
  | true =>
      apply ComesTo.requireAddress
      intro address
      rfl

/-! ## Procedures of instructions -/

theorem carryOut_comesTo (instruction : Instruction) (machine : Machine) :
    ComesTo instruction machine (instruction.carryOut machine.pc)
      (instruction.requiring
        (instruction.fieldsOfAction instruction.opcode.action)
        (instruction.actionEffect machine)) := by
  unfold carryOut actionEffect
  cases instruction.opcode.action with
  | idle => rfl
  | pause =>
      show EStateM.Result.ok Outcome.pause
        ((machine.appendLog .paused).countBreakpoint.retire
          instruction.opcode
          { Handover.goTo (machine.pc + 1) with outcome := .pause }) = _
      rw [Machine.retire_countBreakpoint]
      rfl
  | compute operation =>
      apply ComesTo.requireRegister
      apply ComesTo.readField
      apply ComesTo.readField
      apply ComesTo.compute
      intro result
      rfl
  | computeImmediate operation =>
      apply ComesTo.requireRegister
      apply ComesTo.readField
      apply ComesTo.compute
      intro result
      rfl
  | loadUpper =>
      apply ComesTo.requireRegister
      rfl
  | loadImmediate =>
      apply ComesTo.requireRegister
      rfl
  | copy =>
      apply ComesTo.requireRegister
      apply ComesTo.readField
      rfl
  | branch condition =>
      apply ComesTo.testCondition
      exact ComesTo.branch
  | jump =>
      apply ComesTo.requireAddress
      intro address
      rfl
  | jumpAndLink =>
      apply ComesTo.requireAddress
      intro address
      rfl
  | jumpRegister =>
      apply ComesTo.readField
      apply ComesTo.requireAddress
      intro address
      rfl
  | jumpRegisterAndLink =>
      apply ComesTo.requireRegister
      apply ComesTo.readField
      apply ComesTo.requireAddress
      intro address
      rfl
  | load kind =>
      apply ComesTo.requireRegister
      apply ComesTo.effectiveAddress
      apply ComesTo.fetch
      intro value
      rfl
  | store kind =>
      apply ComesTo.readField
      apply ComesTo.effectiveAddress
      exact ComesTo.write
  | print =>
      apply ComesTo.readField
      rfl

/-- An instruction that is executed in place faults as its effect says, with
the machine as it was, and otherwise carries the effect out. -/
theorem run_perform (instruction : Instruction) (machine : Machine) :
    instruction.perform.run machine =
      match instruction.effect machine with
      | .error fault => .error fault machine
      | .ok effect =>
          .ok effect.outcome (machine.apply instruction.opcode effect) := by
  rw [effect_eq_requiring]
  exact carryOut_comesTo instruction machine

end Instruction

namespace Machine

theorem execute_eq_step (instructions : Array Instruction)
    (machine : Machine) :
    machine.execute instructions =
      match machine.step instructions with
      | .error executionError => .error executionError machine
      | .ok (outcome, next) => .ok outcome next := by
  unfold execute step
  cases instructions[machine.pc]? with
  | none => rfl
  | some instruction =>
      simp only [Instruction.run_perform]
      cases instruction.effect machine with
      | error fault => rfl
      | ok effect => rfl

theorem execute_eq_error_iff {instructions : Array Instruction}
    {machine stopped : Machine} {executionError : ExecutionError} :
    machine.execute instructions = .error executionError stopped ↔
      machine.step instructions = .error executionError ∧
        stopped = machine := by
  rw [execute_eq_step]
  cases machine.step instructions with
  | error cause => simp [eq_comm]
  | ok result => simp

theorem execute_eq_ok_iff {instructions : Array Instruction}
    {machine next : Machine} {outcome : Outcome} :
    machine.execute instructions = .ok outcome next ↔
      machine.step instructions = .ok (outcome, next) := by
  rw [execute_eq_step]
  cases machine.step instructions with
  | error cause => simp
  | ok result =>
      rcases result with ⟨told, reached⟩
      simp

/-- **A fault leaves no trace.**  An instruction that cannot be executed has
not changed the machine in any part: whatever is checked is checked before the
first change. -/
theorem execute_error_unchanged {instructions : Array Instruction}
    {machine stopped : Machine} {executionError : ExecutionError}
    (faulted : machine.execute instructions =
      .error executionError stopped) :
    stopped = machine := by
  obtain ⟨_, unchanged⟩ := execute_eq_error_iff.mp faulted
  exact unchanged

/-- A jump that would link before it faults: its target, the contents of
`$t1`, lies before the program. -/
theorem execute_error_unchanged_jalr :
    let machine :=
      (fresh { Configuration.standard with memory := ⟨8, none⟩ }).setRegister
        9 (-1)
    let jump := { Instruction.bare .jalr 3 with rd := 8, rs := 9 }
    ∃ stopped,
      machine.execute #[jump] =
        .error (.fault 3 (.invalidJumpTarget (-1))) stopped ∧
      stopped = machine := by
  intro machine jump
  have faulted : machine.execute #[jump] =
      .error (.fault 3 (.invalidJumpTarget (-1))) machine := rfl
  exact ⟨machine, faulted, execute_error_unchanged faulted⟩

end Machine

end MiniMips
