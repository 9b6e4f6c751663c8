import MiniMips.Proofs.Machine.InPlace

/-!
Contract: what the execution of one instruction leaves alone, and what it
counts.

Owns:
- what an instruction that is executed comes from, and what a failure comes
  from, which is never a budget;
- that the memory keeps its size, and that the log is only extended;
- that every executed instruction is counted once.
-/

namespace MiniMips

theorem Statistics.retired_record (statistics : Statistics)
    (instructionClass : InstructionClass) (taken : Bool) :
    (statistics.record instructionClass taken).retired =
      statistics.retired + 1 := by
  cases instructionClass <;> cases taken <;> rfl

theorem Statistics.retired_recordEffect (statistics : Statistics)
    (opcode : Opcode) (effect : Effect) :
    (statistics.recordEffect opcode effect).retired =
      statistics.retired + 1 := by
  unfold recordEffect
  cases effect.outcome with
  | proceed => exact retired_record statistics _ _
  | pause => exact retired_record statistics _ _

namespace Machine

theorem memory_size_apply (machine : Machine) (opcode : Opcode)
    (effect : Effect) :
    (machine.apply opcode effect).memory.size = machine.memory.size := by
  unfold apply
  cases effect.bytes? with
  | none => rfl
  | some written => exact Memory.size_setBytes _ _ _

theorem log_apply (machine : Machine) (opcode : Opcode) (effect : Effect) :
    (machine.apply opcode effect).log.toList =
      machine.log.toList ++ effect.entry?.toList := by
  unfold apply
  cases effect.entry? with
  | none => simp
  | some entry => simp

variable {instructions : Array Instruction} {machine next : Machine}
  {outcome : Outcome}

/-- An instruction that is executed stands at the program counter, and what it
does is its effect. -/
theorem execute_eq_ok_iff_effect :
    machine.execute instructions = .ok outcome next ↔
      ∃ instruction effect,
        instructions[machine.pc]? = some instruction ∧
        instruction.effect machine = .ok effect ∧
        outcome = effect.outcome ∧
        next = machine.apply instruction.opcode effect := by
  rw [execute_eq_ok_iff]
  unfold step
  cases instructions[machine.pc]? with
  | none => simp
  | some instruction =>
      cases effects : instruction.effect machine with
      | error fault => simp [effects]
      | ok effect => simp [effects, eq_comm]

/-- There is no instruction at the program counter of a machine that fails, or
it has a fault instead of an effect. -/
theorem execute_eq_error_iff_effect {executionError : ExecutionError}
    {stopped : Machine} :
    machine.execute instructions = .error executionError stopped ↔
      stopped = machine ∧
      (instructions[machine.pc]? = none ∧
          executionError = .outsideProgram machine.pc instructions.size ∨
        ∃ instruction fault,
          instructions[machine.pc]? = some instruction ∧
          instruction.effect machine = .error fault ∧
          executionError = .fault instruction.line fault) := by
  rw [execute_eq_error_iff, and_comm]
  apply and_congr_right
  intro _
  unfold step
  cases instructions[machine.pc]? with
  | none => simp [eq_comm]
  | some instruction =>
      cases effects : instruction.effect machine with
      | error fault => simp [effects, eq_comm]
      | ok effect => simp [effects]

/-- No instruction fails for want of a budget. -/
theorem execute_ne_stepLimitExceeded {stopped : Machine} (limit line : Nat) :
    machine.execute instructions ≠
      .error (.stepLimitExceeded limit line) stopped := by
  intro failed
  obtain ⟨_, ⟨_, absent⟩ | ⟨_, _, _, _, faulted⟩⟩ :=
    execute_eq_error_iff_effect.mp failed
  · contradiction
  · contradiction

theorem execute_memory_size
    (executed : machine.execute instructions = .ok outcome next) :
    next.memory.size = machine.memory.size := by
  obtain ⟨instruction, effect, _, _, _, rfl⟩ :=
    execute_eq_ok_iff_effect.mp executed
  exact memory_size_apply machine instruction.opcode effect

theorem execute_retired
    (executed : machine.execute instructions = .ok outcome next) :
    next.statistics.retired = machine.statistics.retired + 1 := by
  obtain ⟨instruction, effect, _, _, _, rfl⟩ :=
    execute_eq_ok_iff_effect.mp executed
  exact Statistics.retired_recordEffect machine.statistics _ _

end Machine

end MiniMips
