import MiniMips.Proofs.Machine.FaultConditions

/-!
Contract: what the effect of an instruction is made of.

Owns:
- the register, the bytes and the log entry that each action writes;
- that the effect of an instruction is made of what its action writes, and
  leads to where the instruction transfers control.

Does not own: the value that a register is set to, unless it is a return
address.

Whatever is said of all effects follows from these parts, so the actions are
gone through here and nowhere else.
-/

namespace MiniMips

namespace Instruction

/-- The register that an action writes. -/
def destination? (instruction : Instruction) : Action → Option Register
  | .compute _ | .computeImmediate _ | .loadUpper | .loadImmediate | .copy
  | .jumpRegisterAndLink | .load _ => some (registerOfField instruction.rd)
  | .jumpAndLink => some Register.returnAddress
  | .idle | .pause | .branch _ | .jump | .jumpRegister | .store _ | .print =>
      none

/-- The address that loads and stores access. -/
def accessAddress (instruction : Instruction) (machine : Machine) : Int :=
  contents machine instruction.rs + instruction.immediate.toInt

/-- The bytes that an action writes, and the index of the first. -/
def storedBytes? (instruction : Instruction) (machine : Machine) :
    Action → Option (Nat × List UInt8)
  | .store kind =>
      some ((instruction.accessAddress machine).toNat,
        kind.bytes (machine.registers.read (registerOfField instruction.rt)))
  | _ => none

/-- The entry that an action puts at the end of the log. -/
def logged? (instruction : Instruction) (machine : Machine) :
    Action → Option LogEntry
  | .pause => some .paused
  | .print =>
      some (.value (machine.registers.read (registerOfField instruction.rs)))
  | _ => none

end Instruction

/-- An effect is made of what an instruction writes on a machine and of where
it transfers control to. -/
structure Effect.MadeBy (effect : Effect) (instruction : Instruction)
    (machine : Machine) : Prop where
  pc : (effect.pc : Int) =
    (instruction.transfer? machine).getD (machine.pc + 1)
  taken : effect.taken = instruction.isTaken machine
  register? : effect.register?.map Prod.fst =
    instruction.destination? instruction.opcode.action
  linked : instruction.opcode.action = .jumpAndLink ∨
      instruction.opcode.action = .jumpRegisterAndLink →
    effect.register?.map Prod.snd =
      some (Instruction.returnAddress machine.pc)
  bytes? : effect.bytes? =
    instruction.storedBytes? machine instruction.opcode.action
  located : ∀ kind, instruction.opcode.action = .store kind →
    ∃ start, machine.memory.locate (instruction.accessAddress machine)
      kind.width = .ok start
  logged : effect.entry? =
    instruction.logged? machine instruction.opcode.action

namespace Instruction

variable {instruction : Instruction} {machine : Machine} {effect : Effect}

theorem addressOfTarget_eq_ok_iff {target : Int} {address : Nat} :
    addressOfTarget target = .ok address ↔ target = address := by
  cases target with
  | ofNat own =>
      show (Except.ok own : Except ExecutionFault Nat) = .ok address ↔
        (own : Int) = address
      rw [Except.ok.injEq, Int.ofNat_inj]
  | negSucc predecessor => simp [addressOfTarget]

theorem madeBy_of_actionEffect
    (effects : instruction.actionEffect machine = .ok effect) :
    effect.MadeBy instruction machine := by
  have transfer := instruction.transfer?_eq machine
  have taken := instruction.isTaken_eq machine
  unfold actionEffect at effects
  cases acts : instruction.opcode.action with
  | branch condition =>
      simp only [acts] at effects transfer taken
      split at effects
      next holds =>
        rw [if_pos holds] at transfer
        split at effects
        next => contradiction
        next address located =>
          have goes := addressOfTarget_eq_ok_iff.mp located
          cases effects
          constructor <;> simp [acts, transfer, taken, holds, goes,
            Effect.branchTo, Effect.goTo, destination?, storedBytes?,
            logged?]
      next fails =>
        rw [if_neg fails] at transfer
        cases effects
        constructor <;> simp [acts, transfer, taken, fails, Effect.goTo,
          destination?, storedBytes?, logged?]
  | jump | jumpAndLink | jumpRegister | jumpRegisterAndLink =>
      simp only [acts] at effects transfer taken
      split at effects
      next => contradiction
      next address located =>
        have goes := addressOfTarget_eq_ok_iff.mp located
        cases effects
        constructor <;> simp [acts, transfer, taken, goes, contents,
          Effect.writing, Effect.goTo, destination?, storedBytes?,
          logged?]
  | compute operation | computeImmediate operation =>
      simp only [acts] at effects transfer taken
      split at effects
      next result _ =>
        cases effects
        constructor <;> simp [acts, transfer, taken, Effect.writing,
          Effect.goTo, destination?, storedBytes?, logged?]
      next => contradiction
  | load kind =>
      simp only [acts] at effects transfer taken
      split at effects
      next => contradiction
      next =>
        cases effects
        constructor <;> simp [acts, transfer, taken, Effect.writing,
          Effect.goTo, destination?, storedBytes?, logged?]
  | store kind =>
      simp only [acts] at effects transfer taken
      split at effects
      next => contradiction
      next start located =>
        have there : instruction.accessAddress machine = start :=
          (Memory.eq_of_locate located).1
        have allowed : machine.memory.locate start kind.width = .ok start := by
          rw [← there]
          exact located
        cases effects
        constructor <;> simp [acts, transfer, taken, there, allowed,
          Effect.storing, Effect.goTo, destination?, storedBytes?,
          logged?]
  | idle | pause | loadUpper | loadImmediate | copy | print =>
      simp only [acts] at effects transfer taken
      cases effects
      constructor <;> simp [acts, transfer, taken, Effect.writing,
        Effect.logging, Effect.goTo, destination?, storedBytes?, logged?]

/-- **Parts of an effect.**  An instruction that has an effect names registers
in all fields that it uses, and the effect is made by it. -/
theorem madeBy_of_effect (effects : instruction.effect machine = .ok effect) :
    instruction.NamesRegisters ∧ effect.MadeBy instruction machine := by
  unfold Instruction.effect at effects
  cases invalid : instruction.invalidField? with
  | some field =>
      rw [invalid] at effects
      contradiction
  | none =>
      rw [invalid] at effects
      refine ⟨fun field used => ?_, madeBy_of_actionEffect effects⟩
      have names := List.find?_eq_none.mp invalid field used
      rw [Register.ofField?_isNone_iff] at names
      exact not_not.mp names

end Instruction

end MiniMips
