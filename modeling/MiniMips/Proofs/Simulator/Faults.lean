import MiniMips.Proofs.Assembly.Programs
import MiniMips.Proofs.Machine.FaultConditions
import MiniMips.Proofs.Simulator.Consistency

/-!
Contract: the execution errors that a simulator answers with.

Owns:
- that an execution error is about the instruction at the program counter, and
  carries its line;
- that two of the errors are never met: an assembled instruction names registers
  only, and no instruction is executed outside a program.

Does not own: assembly errors, which are about the source.
-/

namespace MiniMips.Simulator

variable {configuration : Configuration} {simulator : Simulator}
  {call : Call} {response : Response} {executionError : ExecutionError}

/-- An execution error is about the instruction at the program counter: it has
the line of the instruction and, if it is a fault, it is the fault of this
instruction.  It is neither about a register that does not exist nor about a
program counter outside the program. -/
structure Located (simulator : Simulator) (executionError : ExecutionError) :
    Prop where
  registersExist : ∀ line opcode field,
    executionError ≠ .fault line (.invalidRegister opcode field)
  insideProgram : ∀ pc size, executionError ≠ .outsideProgram pc size
  atInstruction : ∃ instruction,
    simulator.program.instructions[simulator.machine.pc]? =
        some instruction ∧
      executionError.line? = some instruction.line ∧
      simulator.currentLine = instruction.line ∧
      ∀ line cause, executionError = .fault line cause →
        instruction.fault? simulator.machine = some cause

theorem currentLine_of_present {instruction : Instruction}
    (present : simulator.program.instructions[simulator.machine.pc]? =
      some instruction) :
    simulator.currentLine = instruction.line := by
  simp only [currentLine, present]

/-- An instruction of an up-to-date simulator that fails does so with a located
error. -/
theorem UpToDate.located {stopped : Machine} (upToDate : simulator.UpToDate)
    (inside : simulator.machine.pc < simulator.program.size)
    (failed : simulator.machine.execute simulator.program.instructions =
      .error executionError stopped) :
    Located simulator executionError := by
  obtain ⟨instruction, cause, present, rfl, faults, noRegister⟩ :=
    Machine.execute_error_of_namesRegisters
      (fun _ member => namesRegisters_of_assemble upToDate member) inside failed
  refine ⟨?_, ?_, instruction, present, rfl, currentLine_of_present present, ?_⟩
  · intro line opcode field same
    cases same
    exact noRegister opcode field rfl
  · intro pc size same
    cases same
  · intro line other same
    cases same
    exact faults

/-- A budget that is used up is reported at the instruction that would have
been next. -/
theorem located_stepLimitExceeded (limit : Nat)
    (inside : simulator.machine.pc < simulator.program.size) :
    Located simulator (.stepLimitExceeded limit simulator.currentLine) := by
  have present := Array.getElem?_eq_getElem inside
  have line := currentLine_of_present present
  refine ⟨by simp, by simp, _, present, ?_, line, by simp⟩
  rw [ExecutionError.line?, line]

/-- Counting a run does not move the program counter. -/
theorem Located.recordRun {state : ExecutionState} (nanoseconds : Nat)
    (located : Located simulator executionError) :
    Located
      { simulator with
        machine := simulator.machine.recordRun nanoseconds
        state := state }
      executionError := by
  obtain ⟨instruction, present, line, current, faults⟩ := located.atInstruction
  exact ⟨located.registersExist, located.insideProgram, instruction, present,
    line, current, faults⟩

theorem Coherent.located (coherent : Coherent simulator)
    (answered : Answered simulator call response)
    (failed : response.result = .error (.execution executionError)) :
    Located response.simulator executionError := by
  cases answered with
  | @ran assembled fuel runEnd stopped assembles ends =>
      obtain ⟨count, first⟩ := Machine.firstStop_of_run ends
      obtain ⟨outcome, _, reason⟩ := first.iterate_eq
      have upToDate : { simulator.install assembled with
          machine := stopped }.UpToDate := upToDate_install assembles
      cases runEnd with
      | finished | paused => cases failed
      | failed stoppedBy =>
          cases failed
          obtain ⟨inside, machine, failure⟩ :=
            Machine.failed_of_stopReason? reason
          exact (upToDate.located inside failure).recordRun 0
      | outOfBudget =>
          cases failed
          obtain ⟨_, inside⟩ := Machine.budget_of_stopReason? reason
          exact located_stepLimitExceeded _ inside
  | @faulted ready _ prepared inside faults =>
      cases failed
      have upToDate := coherent.upToDate_of_ready prepared
      have halted : (ready.withState .halted).UpToDate := upToDate
      exact halted.located inside faults
  | notInstalled refused | notRun refused | notStepped _ refused =>
      exact absurd failed (simulatorError_ne_execution _ _)
  | _ => cases failed

/-- **Located errors.**  Whenever a simulator answers a call with an execution
error, whatever has been called on it and done to its machine before, the error
is about the instruction that the program counter points at after the call. -/
theorem execution_error_located (configuration : Configuration)
    (simulator : Simulator) (call : Call) (response : Response)
    (executionError : ExecutionError)
    (reachable : Reachable configuration simulator)
    (answers : simulator.answer? call = some response)
    (failed : response.result = .error (.execution executionError)) :
    (∀ line opcode field,
      executionError ≠ .fault line (.invalidRegister opcode field)) ∧
    (∀ pc size, executionError ≠ .outsideProgram pc size) ∧
    ∃ instruction,
      response.simulator.program.instructions[
          response.simulator.machine.pc]? = some instruction ∧
      executionError.line? = some instruction.line ∧
      response.simulator.currentLine = instruction.line ∧
      ∀ line cause, executionError = .fault line cause →
        instruction.fault? response.simulator.machine = some cause := by
  have located :=
    reachable.coherent.located (answered_of_answer? answers) failed
  exact ⟨located.registersExist, located.insideProgram, located.atInstruction⟩

/-- A run into a division by zero on the third line. -/
theorem execution_error_located_division :
    ∃ response,
      (new "li $t0, 0\n\ndiv $t1, $t1, $t0\n" { Configuration.standard with
        memory := ⟨8, none⟩ }).answer? (.run 2) = some response ∧
      response.result = .error (.execution (.fault 3 .divisionByZero)) ∧
      response.simulator.currentLine = 3 := by
  have results : ((new "li $t0, 0\n\ndiv $t1, $t1, $t0\n"
      { Configuration.standard with
        memory := ⟨8, none⟩ }).answer? (.run 2)).map (·.result) =
          some (.error (.execution (.fault 3 .divisionByZero))) := by
    decide +kernel
  obtain ⟨response, answers, failed⟩ := Option.map_eq_some_iff.mp results
  obtain ⟨_, _, instruction, _, line, current, _⟩ :=
    execution_error_located _ _ _ response _ (.new _) answers failed
  refine ⟨response, answers, failed, ?_⟩
  rw [current]
  exact (Option.some.inj line).symm

end MiniMips.Simulator
