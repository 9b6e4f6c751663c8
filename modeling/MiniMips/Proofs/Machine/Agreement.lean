import MiniMips.Proofs.Machine.Iteration

/-!
Contract: what the execution of an instruction depends on.

Owns:
- agreement of machines in their registers, program counter and memory: the
  same instruction has the same effect on both, or fails alike, and a driver
  stops for the same reason;
- machines that differ at most in the runs they have counted, which go on doing
  so and have the same first stop.

Neither the log nor the statistics are ever read by an instruction.
-/

namespace MiniMips

/-- The counts without those of runs and the time they took. -/
def Statistics.withoutRuns (statistics : Statistics) : Statistics :=
  { statistics with
    runs := 0
    runNanoseconds := 0 }

theorem Statistics.withoutRuns_record (statistics : Statistics)
    (instructionClass : InstructionClass) (taken : Bool) :
    (statistics.record instructionClass taken).withoutRuns =
      statistics.withoutRuns.record instructionClass taken := by
  cases instructionClass <;> cases taken <;> rfl

theorem Statistics.withoutRuns_recordEffect (statistics : Statistics)
    (opcode : Opcode) (effect : Effect) :
    (statistics.recordEffect opcode effect).withoutRuns =
      statistics.withoutRuns.recordEffect opcode effect := by
  unfold recordEffect
  rw [← withoutRuns_record]
  cases effect.outcome with
  | proceed => rfl
  | pause => rfl

namespace Machine

/-- Machines that are alike in all that an instruction depends on. -/
structure Agrees (machine other : Machine) : Prop where
  registers : machine.registers = other.registers
  pc : machine.pc = other.pc
  memory : machine.memory = other.memory

/-- A machine as if it had never counted a run. -/
def withoutRuns (machine : Machine) : Machine :=
  { machine with statistics := machine.statistics.withoutRuns }

/-- Machines that differ at most in the runs they have counted and the time
these took. -/
def SameButRuns (machine other : Machine) : Prop :=
  machine.withoutRuns = other.withoutRuns

variable {machine other next start stopped : Machine}
  {instructions : Array Instruction} {budget : Option Nat} {count : Nat}
  {outcome : Outcome} {runEnd : RunEnd} {executionError : ExecutionError}

/-! ## Agreement -/

theorem Agrees.refl (machine : Machine) : machine.Agrees machine :=
  ⟨rfl, rfl, rfl⟩

theorem Agrees.symm (agrees : machine.Agrees other) : other.Agrees machine :=
  ⟨agrees.registers.symm, agrees.pc.symm, agrees.memory.symm⟩

theorem Agrees.trans (agrees : machine.Agrees next)
    (further : next.Agrees other) : machine.Agrees other :=
  ⟨agrees.registers.trans further.registers, agrees.pc.trans further.pc,
    agrees.memory.trans further.memory⟩

theorem Agrees.effect_eq (agrees : machine.Agrees other)
    (instruction : Instruction) :
    instruction.effect machine = instruction.effect other := by
  unfold Instruction.effect Instruction.actionEffect
  rw [agrees.registers, agrees.pc, agrees.memory]

/-- What an instruction does to a machine it does to one that agrees with
it. -/
theorem Agrees.execute_eq_ok (agrees : machine.Agrees other)
    (executed : machine.execute instructions = .ok outcome next) :
    ∃ opcode effect, outcome = effect.outcome ∧
      next = machine.apply opcode effect ∧
      other.execute instructions = .ok outcome (other.apply opcode effect) := by
  obtain ⟨instruction, effect, present, effects, rfl, rfl⟩ :=
    execute_eq_ok_iff_effect.mp executed
  refine ⟨instruction.opcode, effect, rfl, rfl, ?_⟩
  rw [agrees.pc] at present
  rw [agrees.effect_eq instruction] at effects
  exact execute_eq_ok_iff_effect.mpr
    ⟨instruction, effect, present, effects, rfl, rfl⟩

theorem Agrees.execute_eq_error (agrees : machine.Agrees other)
    {left : Machine}
    (failed : machine.execute instructions = .error executionError left) :
    other.execute instructions = .error executionError other := by
  obtain ⟨_, causes⟩ := execute_eq_error_iff_effect.mp failed
  refine execute_eq_error_iff_effect.mpr ⟨rfl, ?_⟩
  simpa only [agrees.pc, agrees.effect_eq] using causes

/-- A driver stops for the same reason with machines that agree. -/
theorem Agrees.stopReason?_eq (agrees : machine.Agrees other)
    (instructions : Array Instruction) (budget : Option Nat) (count : Nat)
    (outcome : Outcome) :
    machine.stopReason? instructions budget count outcome =
      other.stopReason? instructions budget count outcome := by
  unfold stopReason?
  rw [agrees.pc]
  cases executed : machine.execute instructions with
  | error executionError left => rw [agrees.execute_eq_error executed]
  | ok outcome next =>
      obtain ⟨_, _, _, _, executedOther⟩ := agrees.execute_eq_ok executed
      rw [executedOther]

/-! ## Counted runs -/

theorem SameButRuns.refl (machine : Machine) : machine.SameButRuns machine :=
  rfl

theorem SameButRuns.symm (same : machine.SameButRuns other) :
    other.SameButRuns machine :=
  Eq.symm same

theorem SameButRuns.trans (same : machine.SameButRuns next)
    (further : next.SameButRuns other) : machine.SameButRuns other :=
  Eq.trans same further

theorem sameButRuns_recordRun (machine : Machine) (nanoseconds : Nat) :
    machine.SameButRuns (machine.recordRun nanoseconds) :=
  rfl

theorem SameButRuns.agrees (same : machine.SameButRuns other) :
    machine.Agrees other := by
  obtain ⟨registers, pc, memory, _⟩ := Machine.mk.inj same
  exact ⟨registers, pc, memory⟩

theorem withoutRuns_apply (machine : Machine) (opcode : Opcode)
    (effect : Effect) :
    (machine.apply opcode effect).withoutRuns =
      machine.withoutRuns.apply opcode effect := by
  unfold withoutRuns apply
  rw [Statistics.withoutRuns_recordEffect]

theorem SameButRuns.apply (same : machine.SameButRuns other)
    (opcode : Opcode) (effect : Effect) :
    (machine.apply opcode effect).SameButRuns (other.apply opcode effect) := by
  unfold SameButRuns at same ⊢
  rw [withoutRuns_apply, withoutRuns_apply, same]

theorem SameButRuns.execute_eq_ok (same : machine.SameButRuns other)
    (executed : machine.execute instructions = .ok outcome next) :
    ∃ otherNext, other.execute instructions = .ok outcome otherNext ∧
      next.SameButRuns otherNext := by
  obtain ⟨opcode, effect, _, rfl, executedOther⟩ :=
    same.agrees.execute_eq_ok executed
  exact ⟨_, executedOther, same.apply opcode effect⟩

/-- The runs that a machine has counted do not influence where it first
stops. -/
theorem FirstStop.exists_of_sameButRuns
    (first : FirstStop instructions budget start count runEnd stopped)
    (same : start.SameButRuns other) :
    ∃ otherStopped,
      FirstStop instructions budget other count runEnd otherStopped ∧
      stopped.SameButRuns otherStopped := by
  induction count generalizing budget start other with
  | zero =>
      obtain ⟨_, iterates, reason⟩ := first.iterate_eq
      cases iterates
      rw [same.agrees.stopReason?_eq] at reason
      refine ⟨other, FirstStop.zero ?_, same⟩
      simp only [stopAfter?, iterate, reason, Option.map_some]
  | succ count inductionHypothesis =>
      have silent := first.goesOn 0 (Nat.succ_pos count)
      have silentOther : other.stopAfter? instructions budget 0 = none := by
        simp only [stopAfter?, iterate, Option.map_eq_none_iff] at silent ⊢
        rw [← same.agrees.stopReason?_eq, silent]
      cases beginning instructions budget start with
      | stop beginningEnd stops ends =>
          rw [stops] at silent
          contradiction
      | pause next executed affordable goesOn ends =>
          obtain ⟨otherNext, executedOther, sameNext⟩ :=
            same.execute_eq_ok executed
          obtain ⟨sameCount, rfl, rfl⟩ :=
            first.unique (FirstStop.one_of_pause goesOn executed)
          rw [sameCount]
          exact ⟨otherNext, FirstStop.one_of_pause silentOther executedOther,
            sameNext⟩
      | proceed next executed affordable goesOn continues =>
          obtain ⟨otherNext, executedOther, sameNext⟩ :=
            same.execute_eq_ok executed
          obtain ⟨otherStopped, firstOther, sameStopped⟩ :=
            inductionHypothesis
              ((firstStop_succ_iff affordable goesOn executed).mp first)
              sameNext
          exact ⟨otherStopped,
            (firstStop_succ_iff affordable silentOther executedOther).mpr
              firstOther, sameStopped⟩

end Machine

end MiniMips
