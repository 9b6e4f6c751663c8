import MiniMips.Machine.Procedure

/-!
Contract: executing a program on a machine.

Owns:
- executing the instruction at the program counter in place;
- one step: what executing that instruction comes to, told by its effect;
- a run: instructions until the program ends, a breakpoint, a fault, or the end
  of the budget.

A run need not end.  Its definition is given an amount of fuel, one unit for
every instruction, and has no result when the fuel does not suffice; more fuel
never changes a result.
-/

namespace MiniMips

/-- Why a run returned. -/
inductive RunEnd where
  /-- The program counter has left the program. -/
  | finished
  | paused
  | failed (executionError : ExecutionError)
  /-- The budget is used up and the program has not ended. -/
  | outOfBudget
deriving DecidableEq, Repr

namespace Machine

/-- Execute the instruction at the program counter.  A machine that faults is
returned as the fault has left it. -/
def execute (instructions : Array Instruction) (machine : Machine) :
    EStateM.Result ExecutionError Machine Outcome :=
  match instructions[machine.pc]? with
  | none =>
      .error (.outsideProgram machine.pc instructions.size) machine
  | some instruction =>
      match instruction.perform.run machine with
      | .error cause stopped => .error (.fault instruction.line cause) stopped
      | .ok outcome next => .ok outcome next

/-- The outcome of the instruction at the program counter and the machine after
it, or why there is none. -/
def step (instructions : Array Instruction) (machine : Machine) :
    Except ExecutionError (Outcome × Machine) :=
  match instructions[machine.pc]? with
  | none => .error (.outsideProgram machine.pc instructions.size)
  | some instruction =>
      match instruction.effect machine with
      | .error cause => .error (.fault instruction.line cause)
      | .ok effect =>
          .ok (effect.outcome, machine.apply instruction.opcode effect)

/-- Run a machine.  Before every instruction it is looked at whether the
program has ended, and then whether there is budget left. -/
def run (instructions : Array Instruction) :
    (fuel : Nat) → (budget : Option Nat) → Machine → Option (RunEnd × Machine)
  | 0, _, _ => none
  | fuel + 1, budget, machine =>
      if instructions.size ≤ machine.pc then
        some (.finished, machine)
      else if budget = some 0 then
        some (.outOfBudget, machine)
      else
        match machine.execute instructions with
        | .error executionError stopped =>
            some (.failed executionError, stopped)
        | .ok .pause next => some (.paused, next)
        | .ok .proceed next =>
            run instructions fuel (budget.map (· - 1)) next

end Machine

end MiniMips
