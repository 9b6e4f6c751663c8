import MiniMips.Proofs.Assembly.Resolution
import MiniMips.Proofs.Machine.EffectParts
import MiniMips.Proofs.Machine.Iteration

/-!
Contract: programs that only go forward.

Owns:
- programs whose branches and jumps all lead further down, with no jumps to
  where a register says;
- that every instruction of such a program increases the program counter;
- that a driver with such a program stops, and how many instructions it
  executes at most.
-/

namespace MiniMips

/-- An instruction that leads further down from its address, wherever it leads
to.  Where it leads does not depend on a register. -/
structure Instruction.GoesForward (instruction : Instruction)
    (address : Nat) : Prop where
  notRegister : instruction.opcode ≠ .jr
  notRegisterAndLink : instruction.opcode ≠ .jalr
  target : ∀ target ∈ instruction.target? address, (address : Int) < target

def Program.IsForward (program : Program) : Prop :=
  ∀ (address : Nat) (instruction : Instruction),
    program.instructions[address]? = some instruction →
      instruction.GoesForward address

variable {program : Program} {instruction : Instruction}
  {machine start next reached : Machine} {effect : Effect}
  {outcome : Outcome} {count : Nat}

/-! ## One instruction -/

theorem Instruction.GoesForward.transfer
    (forward : instruction.GoesForward machine.pc) {target : Int}
    (transfers : instruction.transfer? machine = some target) :
    (machine.pc : Int) < target := by
  refine forward.target target ?_
  have goes : instruction.isTaken machine = true ∨ instruction.opcode = .j ∨
      instruction.opcode = .jal := by
    unfold transfer? at transfers
    split at transfers
    next jumps => exact .inr jumps
    split at transfers
    next registers =>
      exact absurd registers
        (not_or.mpr ⟨forward.notRegister, forward.notRegisterAndLink⟩)
    split at transfers
    next taken => exact .inl taken
    next => contradiction
  rw [← transfer?_eq_target? goes]
  exact transfers

/-- **Progress.**  Every instruction of a forward program increases the program
counter. -/
theorem Program.IsForward.pc_lt (forward : program.IsForward)
    (executed : machine.execute program.instructions = .ok outcome next) :
    machine.pc < program.size ∧ machine.pc < next.pc := by
  obtain ⟨instruction, effect, present, effects, _, rfl⟩ :=
    Machine.execute_eq_ok_iff_effect.mp executed
  have inside := (Array.getElem?_eq_some_iff.mp present).1
  refine ⟨inside, ?_⟩
  show machine.pc < effect.pc
  have reached := (Instruction.madeBy_of_effect effects).2.pc
  cases transfers : instruction.transfer? machine with
  | none =>
      rw [transfers, Option.getD_none] at reached
      omega
  | some target =>
      rw [transfers, Option.getD_some] at reached
      have further := (forward machine.pc instruction present).transfer
        transfers
      omega

/-! ## Many instructions -/

/-- A machine that has executed no more instructions than it has passed
addresses of the program. -/
structure Machine.Advancing (program : Program) (machine : Machine) :
    Prop where
  behind : machine.statistics.retired ≤ machine.pc
  bounded : machine.statistics.retired ≤ program.size

theorem Machine.Advancing.execute (advancing : machine.Advancing program)
    (forward : program.IsForward)
    (executed : machine.execute program.instructions = .ok outcome next) :
    next.Advancing program := by
  obtain ⟨inside, further⟩ := forward.pc_lt executed
  have counted := execute_retired executed
  have behind := advancing.behind
  constructor <;> omega

theorem Machine.Advancing.iterate (advancing : start.Advancing program)
    (forward : program.IsForward)
    (iterates : start.iterate program.instructions count =
      some (outcome, reached)) : reached.Advancing program := by
  apply iterate_induction (motive := fun _ machine =>
    machine.Advancing program) advancing _ iterates
  intro _ machine _ next before executed
  exact before.execute forward executed

/-- Without a budget a driver stops too, after no more instructions than there
are addresses before it. -/
theorem Program.IsForward.exists_firstStop (forward : program.IsForward)
    (start : Machine) :
    ∃ count runEnd stopped, count ≤ program.size - start.pc ∧
      Machine.FirstStop program.instructions none start count runEnd
        stopped := by
  -- Induction on the number of addresses that are left.
  generalize left : program.size - start.pc = remaining
  induction remaining using Nat.strongRecOn generalizing start with
  | _ remaining inductionHypothesis =>
    cases Machine.beginning program.instructions none start with
    | stop runEnd stops ends =>
        exact ⟨0, runEnd, start, Nat.zero_le _, .zero stops⟩
    | pause next executed affordable goesOn ends =>
        have inside := (forward.pc_lt executed).1
        exact ⟨1, .paused, next, by omega, .one_of_pause goesOn executed⟩
    | proceed next executed affordable goesOn continues =>
        obtain ⟨inside, further⟩ := forward.pc_lt executed
        obtain ⟨count, runEnd, stopped, few, first⟩ :=
          inductionHypothesis (program.size - next.pc) (by omega) next rfl
        exact ⟨count + 1, runEnd, stopped, by omega,
          (Machine.firstStop_succ_iff affordable goesOn executed).mpr first⟩

end MiniMips
