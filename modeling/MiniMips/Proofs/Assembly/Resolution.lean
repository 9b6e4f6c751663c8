import Mathlib.Algebra.Group.Nat.Defs
import MiniMips.Proofs.Assembly.Programs
import MiniMips.Proofs.Machine.FaultConditions
import MiniMips.Proofs.Machine.Footprint

/-!
Contract: what a label stands for as an operand.

Owns:
- the operand slots that a label may stand in, which are the last slots of the
  branches and of the direct jumps;
- the number that a label stands for there, and that it could be written
  instead;
- that a branch or jump to a label goes to the instruction after its
  declaration.

The class of an operation decides what its destination is relative to when it
is executed, and its operand shape decides so when it is read.  That the two
agree is seen once, in the tables of slots.
-/

namespace MiniMips

/-! ## Slots of targets -/

def OperandSlot.IsTarget (slot : OperandSlot) : Prop :=
  slot = .branchTarget ∨ slot = .jumpTarget

/-- Nothing is written after a target. -/
theorem OperandShape.target_last (shape : OperandShape) :
    shape.slots.Pairwise (fun slot _ => ¬slot.IsTarget) := by
  cases shape <;> simp [slots, OperandSlot.IsTarget]

theorem Opcode.branchTarget_mem_iff (opcode : Opcode) :
    .branchTarget ∈ opcode.shape.slots ↔ opcode.isBranch = true := by
  cases opcode <;> decide

theorem Opcode.jumpTarget_mem_iff (opcode : Opcode) :
    .jumpTarget ∈ opcode.shape.slots ↔ opcode = .j ∨ opcode = .jal := by
  cases opcode <;> decide

theorem Opcode.isBranch_of_conditionHolds {opcode : Opcode}
    {first second : Int} (holds : opcode.conditionHolds first second = true) :
    opcode.isBranch = true := by
  unfold conditionHolds at holds
  split at holds <;> trivial

theorem Opcode.not_jumps_of_isBranch {opcode : Opcode}
    (branch : opcode.isBranch = true) :
    ¬(opcode = .j ∨ opcode = .jal) ∧ ¬(opcode = .jr ∨ opcode = .jalr) := by
  revert branch
  cases opcode <;> decide

namespace Instruction

variable {labels : LabelTable} {address destination : Nat}
  {instruction : Instruction} {slot : OperandSlot} {name mnemonic : String}
  {line : Nat}

/-! ## Destinations -/

/-- The number that stands for a destination in an instruction at an address:
a branch counts from the next instruction. -/
def targetNumber (instruction : Instruction) (address destination : Nat) :
    Int :=
  if instruction.opcode.isBranch then
    destination - (address + 1)
  else
    destination

theorem toInt_branchOffset (near : address + 1 < 2 ^ 31)
    (bounded : destination < 2 ^ 31) :
    (branchOffset address destination).toInt =
      (destination : Int) - (address + 1) := by
  have same : branchOffset address destination =
      Int32.ofInt ((destination : Int) - (address + 1)) := by
    rw [Int32.ofInt_sub, Int32.ofInt_add]
    rfl
  rw [same]
  exact Int32.toInt_ofInt_of_le (by omega) (by omega)

theorem target?_eq (instruction : Instruction) (address : Nat) :
    instruction.target? address =
      if instruction.opcode.isBranch then
        some (instruction.branchDestination address)
      else if instruction.opcode = .j ∨ instruction.opcode = .jal then
        some instruction.jumpDestination
      else
        none := by
  unfold target? shape
  cases instruction.opcode <;> rfl

/-- A branch that is taken and a direct jump go to their targets. -/
theorem transfer?_eq_target? {machine : Machine}
    (goes : instruction.isTaken machine = true ∨ instruction.opcode = .j ∨
      instruction.opcode = .jal) :
    instruction.transfer? machine = instruction.target? machine.pc := by
  rw [target?_eq]
  unfold transfer?
  rcases goes with taken | jumps
  · have branch := Opcode.isBranch_of_conditionHolds taken
    obtain ⟨noJump, noRegisterJump⟩ := Opcode.not_jumps_of_isBranch branch
    rw [if_neg noJump, if_neg noRegisterJump, if_pos taken, if_pos branch]
    rfl
  · have noBranch : ¬instruction.opcode.isBranch = true :=
      fun branch => (Opcode.not_jumps_of_isBranch branch).1 jumps
    rw [if_pos jumps, if_neg noBranch, if_pos jumps]
    rfl

/-- An instruction that holds the number of a destination in a target slot has
this destination as its target. -/
theorem target?_of_targetNumber
    (targets : instruction.opcode.isBranch = true ∨
      instruction.opcode = .j ∨ instruction.opcode = .jal)
    (number : instruction.immediate.toInt =
      instruction.targetNumber address destination) :
    instruction.target? address = some (destination : Int) := by
  rw [target?_eq]
  unfold targetNumber at number
  split at number
  next branch =>
    rw [if_pos branch, branchDestination, number]
    congr 1
    omega
  next noBranch =>
    rw [if_neg noBranch, if_pos (targets.resolve_left noBranch),
      jumpDestination, number]

/-! ## Labels as operands -/

/-- What a label denotes in a slot is the number of its destination. -/
theorem Holds.exists_destination
    (holds : Holds labels address instruction slot (.symbol name))
    (among : slot ∈ instruction.shape.slots) (near : address + 1 < 2 ^ 31)
    (bounded : ∀ destination, labels.resolve? name = some destination →
      destination < 2 ^ 31) :
    ∃ destination, labels.resolve? name = some destination ∧
      (instruction.opcode.isBranch = true ∨
        instruction.opcode = .j ∨ instruction.opcode = .jal) ∧
      instruction.immediate.toInt =
        instruction.targetNumber address destination := by
  cases holds with
  | @branchLabel _ destination resolved held =>
      have branch := (Opcode.branchTarget_mem_iff _).mp among
      refine ⟨destination, resolved, .inl branch, ?_⟩
      rw [targetNumber, if_pos branch, held]
      exact toInt_branchOffset near (bounded destination resolved)
  | @jumpLabel _ destination resolved held =>
      have jumps := (Opcode.jumpTarget_mem_iff _).mp among
      have noBranch : ¬instruction.opcode.isBranch = true :=
        fun branch => (Opcode.not_jumps_of_isBranch branch).1 jumps
      refine ⟨destination, resolved, .inr jumps, ?_⟩
      rw [targetNumber, if_neg noBranch, held]
      exact Int32.toInt_ofNat_of_lt (bounded destination resolved)

theorem Holds.isTarget
    (holds : Holds labels address instruction slot (.symbol name)) :
    slot.IsTarget := by
  cases holds with
  | branchLabel => exact .inl rfl
  | jumpLabel => exact .inr rfl

theorem Holds.number_of_isTarget (target : slot.IsTarget) :
    Holds labels address instruction slot (.immediate instruction.immediate) := by
  rcases target with rfl | rfl
  · exact .branchNumber rfl
  · exact .jumpNumber rfl

/-- A label operand stands in a target slot and is the last operand, and the
number that the instruction holds there could be written instead. -/
theorem Denoted.cut_symbol {left right : List Token} {symbol : Token}
    (denoted : Denoted labels address mnemonic line (left ++ symbol :: right)
      instruction)
    (refers : symbol.kind = .symbol name) :
    ∃ slot ∈ instruction.shape.slots,
      Holds labels address instruction slot (.symbol name) ∧
      ∀ replacement : Token,
        replacement.kind = .immediate instruction.immediate →
        Denoted labels address mnemonic line (left ++ replacement :: right)
          instruction := by
  obtain ⟨known, sameLine, sameLabel, blank, operands, written, holds⟩ :=
    denoted
  rw [List.map_append, List.map_cons, refers] at written
  obtain ⟨first, second, writtenFirst, writtenSecond, rfl⟩ :=
    written.cut_symbol
  obtain ⟨before, slot, later, slots, holdsFirst, held, holdsSecond⟩ :=
    forall₂_append_cons holds
  have among : slot ∈ instruction.shape.slots := by
    rw [slots]
    simp
  -- The slot is the last one, so there is nothing left for other operands.
  have last : later = [] := by
    have order := instruction.shape.target_last
    rw [slots, List.pairwise_append] at order
    refine List.eq_nil_iff_forall_not_mem.mpr fun other member => ?_
    exact (List.pairwise_cons.mp order.2.1).1 other member held.isTarget
  subst last
  obtain rfl := List.forall₂_nil_left_iff.mp holdsSecond
  refine ⟨slot, among, held, fun replacement number => ?_⟩
  refine ⟨known, sameLine, sameLabel, blank,
    first ++ [.immediate instruction.immediate], ?_, ?_⟩
  · rw [List.map_append, List.map_cons, number]
    refine writtenFirst.append (.immediate _ ?_ writtenSecond) (by simp)
    simp [writtenSecond.eq_nil]
  · rw [slots]
    exact List.rel_append holdsFirst
      (.cons (.number_of_isTarget held.isTarget) .nil)

/-- A branch that is taken and a direct jump are executed, unless their target
lies before the program. -/
theorem execute_of_target {instructions : Array Instruction}
    {machine : Machine}
    (present : instructions[machine.pc]? = some instruction)
    (names : instruction.NamesRegisters)
    (target : instruction.target? machine.pc = some (destination : Int))
    (goes : instruction.isTaken machine = true ∨ instruction.opcode = .j ∨
      instruction.opcode = .jal) :
    ∃ outcome next, machine.execute instructions = .ok outcome next ∧
      next.pc = destination := by
  have transfers := (transfer?_eq_target? goes).trans target
  obtain ⟨effect, effects, reached⟩ := actionEffect_of_transfer transfers
  rw [← names.effect_eq] at effects
  refine ⟨effect.outcome, machine.apply instruction.opcode effect, ?_, reached⟩
  exact Machine.execute_eq_ok_iff_effect.mpr
    ⟨instruction, effect, present, effects, rfl, rfl⟩

end Instruction

namespace Program

variable {before after : List Token} {symbol : Token} {name : String}
  {program : Program}

/-- A label operand is what an instruction of the program holds in a slot, and
what it holds there could be written instead. -/
theorem exists_holds_of_symbol
    (accepts : ofTokens (before ++ symbol :: after) = .ok program)
    (refers : symbol.kind = .symbol name) :
    ∃ index instruction, Token.mnemonicCount before = index + 1 ∧
      program.instructions[index]? = some instruction ∧
      (∃ slot ∈ instruction.shape.slots,
        Instruction.Holds program.labels index instruction slot
          (.symbol name)) ∧
      ∀ replacement : Token,
        replacement.kind = .immediate instruction.immediate →
        replacement.line = symbol.line →
        ofTokens (before ++ replacement :: after) = .ok program := by
  obtain ⟨statements, made, table, distinct, denoted⟩ :=
    ofTokens_eq_ok_iff.mp accepts
  have operand : symbol.startsStatement = false := by
    simp [Token.startsStatement, refers]
  obtain ⟨earlier, mnemonic, left, right, later, rfl, count, exchange⟩ :=
    made.exists_of_operand operand
  obtain ⟨first, others, cut, denotedFirst, denotedOthers⟩ :=
    Instruction.allDenoted_append_iff.mp denoted
  cases denotedOthers with
  | @instruction _ _ _ _ instruction _ second denotedHere denotedSecond =>
      have position := denotedFirst.length_eq
      obtain ⟨slot, among, holds, numbered⟩ := denotedHere.cut_symbol refers
      refine ⟨Statement.instructionCount earlier, instruction, count, ?_,
        ⟨slot, among, ?_⟩, ?_⟩
      · rw [← Array.getElem?_toList, cut, ← position]
        simp
      · rw [Nat.zero_add] at holds
        exact holds
      · intro replacement number sameLine
        have noStart : replacement.startsStatement = false := by
          simp [Token.startsStatement, number]
        have remade := exchange replacement sameLine noStart
        refine ofTokens_eq_ok_iff.mpr ⟨_, remade, ?_, distinct, ?_⟩
        · rw [table, ← made.declarations_eq, ← remade.declarations_eq,
            Statement.declarations_append, Statement.declarations_append]
          rfl
        · rw [cut]
          exact Instruction.allDenoted_append_iff.mpr ⟨first, _, rfl,
            denotedFirst, .instruction (numbered replacement number)
              denotedSecond⟩

/-- **Labels.**  In a program with fewer than 2^31 instructions, a label that
is an operand of the instruction at `index` is resolved to the number of
mnemonics before its declaration, which is the target of the instruction.  The
number of the target could be written instead of the label, and the instruction
goes to the target when it is executed, provided that it is a jump or a branch
whose condition holds. -/
theorem label_resolution
    (accepts : ofTokens (before ++ symbol :: after) = .ok program)
    (refers : symbol.kind = .symbol name)
    (registers : ∀ token ∈ before ++ symbol :: after, ∀ index,
      token.kind = .register index → index < 32)
    (bounded : program.size < 2 ^ 31) :
    ∃ index instruction destination,
      Token.mnemonicCount before = index + 1 ∧
      program.instructions[index]? = some instruction ∧
      program.labels.resolve? name = some destination ∧
      destination ≤ program.size ∧
      (∀ preceding following,
        Token.Declares (before ++ symbol :: after) name preceding following ↔
          preceding = destination ∧
            preceding + following = program.size) ∧
      (instruction.opcode.isBranch = true ∨ instruction.opcode = .j ∨
        instruction.opcode = .jal) ∧
      instruction.target? index = some (destination : Int) ∧
      (∃ number : Int32,
        number.toInt = instruction.targetNumber index destination ∧
        ∀ replacement : Token, replacement.kind = .immediate number →
          replacement.line = symbol.line →
          ofTokens (before ++ replacement :: after) = .ok program) ∧
      (∀ machine : Machine, machine.pc = index →
        (instruction.isTaken machine = true ∨ instruction.opcode = .j ∨
          instruction.opcode = .jal) →
        ∃ outcome next,
          machine.execute program.instructions = .ok outcome next ∧
            next.pc = destination) := by
  obtain ⟨index, instruction, count, found, ⟨slot, among, holds⟩, numbered⟩ :=
    exists_holds_of_symbol accepts refers
  have inside : index < program.size :=
    (Array.getElem?_eq_some_iff.mp found).1
  obtain ⟨destination, resolved, targets, number⟩ :=
    holds.exists_destination among (Nat.lt_of_le_of_lt inside bounded)
      (fun _ resolved =>
        Nat.lt_of_le_of_lt (le_size_of_resolve? accepts resolved) bounded)
  have target := Instruction.target?_of_targetNumber targets number
  refine ⟨index, instruction, destination, count, found, resolved,
    le_size_of_resolve? accepts resolved, ?_, targets, target,
    ⟨instruction.immediate, number, numbered⟩, ?_⟩
  · intro preceding following
    rw [declares_iff accepts, resolved, Option.some.injEq,
      eq_comm (a := destination)]
  · rintro machine rfl goes
    exact Instruction.execute_of_target found
      (namesRegisters accepts registers (Array.mem_of_getElem? found)) target
      goes

/-- A branch to a label after the last instruction: the label could be written
as the number one, and the branch goes to the end of the program. -/
theorem label_resolution_trailing :
    let branch : List Token :=
      [⟨.mnemonic "beq", "beq", 1⟩, ⟨.register 0, "$zero", 1⟩,
        ⟨.register 0, "$0", 1⟩]
    let rest : List Token :=
      [⟨.mnemonic "nop", "nop", 2⟩, ⟨.label "done", "done:", 3⟩]
    let machine :=
      Machine.fresh { Configuration.standard with memory := ⟨8, none⟩ }
    ∃ program,
      ofTokens (branch ++ ⟨.symbol "done", "done", 1⟩ :: rest) =
        .ok program ∧
      program.labels.resolve? "done" = some 2 ∧
      ofTokens (branch ++ ⟨.immediate 1, "1", 1⟩ :: rest) = .ok program ∧
      ∃ outcome next,
        machine.execute program.instructions = .ok outcome next ∧
          next.pc = 2 := by
  intro branch rest machine
  let first : Instruction :=
    { Instruction.bare .beq 1 with rs := 0, rt := 0, immediate := 1 }
  let program : Program :=
    ⟨#[first, .bare .nop 2], ⟨[⟨"done", 2, 3⟩]⟩⟩
  have accepts :
      ofTokens (branch ++ ⟨.symbol "done", "done", 1⟩ :: rest) =
        .ok program := by
    decide +kernel
  obtain ⟨index, instruction, destination, count, found, resolved, _, _, _, _,
      ⟨number, offset, exchange⟩, executes⟩ :=
    label_resolution accepts rfl (by simp [branch, rest]) (by decide)
  obtain rfl : index = 0 := (Nat.succ.inj count).symm
  obtain rfl : destination = 2 := (Option.some.inj resolved).symm
  obtain rfl : instruction = first := (Option.some.inj found).symm
  obtain rfl : number = 1 := Int32.toInt_inj.mp offset
  exact ⟨program, accepts, resolved, exchange _ rfl rfl,
    executes machine rfl (.inl rfl)⟩

end Program

end MiniMips
