import MiniMips.Proofs.Machine.Breakpoints
import MiniMips.Proofs.Machine.EffectParts

/-!
Contract: what the counters of a machine say about its past.

Owns:
- the accesses to a machine, and the executions that were asked of it by them;
- what one executed instruction adds to the counters and to the log;
- that the counters account for every execution that was asked for, whatever
  the programs were and whether the executions failed.

Does not own: counting runs, which is up to the driver of a machine.
-/

namespace MiniMips

namespace Machine

/-- What is done to a machine from outside.  Every execution brings its own
program. -/
inductive Access where
  | execute (instructions : Array Instruction)
  | setRegister (register : Register) (value : Int32)
  | clearLog

/-- An execution that was asked of a machine: the program and the machine
before it. -/
structure Attempt where
  instructions : Array Instruction
  machine : Machine

namespace Attempt

def result (attempt : Attempt) : Except ExecutionError Outcome :=
  (attempt.machine.attempt attempt.instructions).1

/-- The machine after an execution, which may have failed. -/
def after (attempt : Attempt) : Machine :=
  (attempt.machine.attempt attempt.instructions).2

def succeeds (attempt : Attempt) : Bool :=
  match attempt.result with
  | .ok _ => true
  | .error _ => false

def pauses (attempt : Attempt) : Bool :=
  match attempt.result with
  | .ok .pause => true
  | .ok .proceed | .error _ => false

/-- Whether a branch is executed whose condition holds. -/
def takesBranch (attempt : Attempt) : Bool :=
  attempt.succeeds &&
    attempt.instructions[attempt.machine.pc]?.any
      (fun instruction => instruction.isTaken attempt.machine)

/-- The entries that an execution puts at the end of the log. -/
def appended (attempt : Attempt) : List LogEntry :=
  attempt.after.log.toList.drop attempt.machine.log.size

end Attempt

def access (machine : Machine) : Access → Machine
  | .execute instructions => (Attempt.mk instructions machine).after
  | .setRegister register value => machine.setRegister register value
  | .clearLog => machine.clearLog

/-- The machine after accesses, in the order of the list. -/
def afterAll (machine : Machine) (accesses : List Access) : Machine :=
  accesses.foldl access machine

/-- The executions among accesses to a machine. -/
def executions (machine : Machine) : List Access → List Attempt
  | [] => []
  | .execute instructions :: rest =>
      ⟨instructions, machine⟩ ::
        executions (machine.access (.execute instructions)) rest
  | .setRegister register value :: rest =>
      executions (machine.access (.setRegister register value)) rest
  | .clearLog :: rest => executions (machine.access .clearLog) rest

end Machine

/-- The counters say what became of executions. -/
structure Statistics.AccountsFor (statistics : Statistics)
    (attempts : List Machine.Attempt) : Prop where
  retired : statistics.retired = attempts.countP Machine.Attempt.succeeds
  classes : statistics.retired =
    statistics.arithmetic + statistics.logic + statistics.shift +
      statistics.load + statistics.store + statistics.branch +
      statistics.jump + statistics.control + statistics.output
  branches : statistics.branch =
    statistics.branchesTaken + statistics.branchesNotTaken
  taken : statistics.branchesTaken =
    attempts.countP Machine.Attempt.takesBranch
  breakpoints : statistics.breakpoints =
    attempts.countP Machine.Attempt.pauses
  control : statistics.breakpoints ≤ statistics.control
  entries : (attempts.flatMap Machine.Attempt.appended).length =
    statistics.output + statistics.breakpoints

/-! ## What one instruction adds -/

namespace Statistics

variable (statistics : Statistics) (instructionClass : InstructionClass)
  (taken : Bool)

theorem classes_record :
    let counted := statistics.record instructionClass taken
    counted.arithmetic + counted.logic + counted.shift + counted.load +
        counted.store + counted.branch + counted.jump + counted.control +
        counted.output =
      statistics.arithmetic + statistics.logic + statistics.shift +
        statistics.load + statistics.store + statistics.branch +
        statistics.jump + statistics.control + statistics.output + 1 := by
  cases instructionClass <;> cases taken <;>
    simp only [record, recordClass, if_true, Bool.false_eq_true, if_false] <;>
    omega

theorem branches_record (balanced : statistics.branch =
      statistics.branchesTaken + statistics.branchesNotTaken) :
    let counted := statistics.record instructionClass taken
    counted.branch = counted.branchesTaken + counted.branchesNotTaken := by
  cases instructionClass <;> cases taken <;>
    simp only [record, recordClass, if_true, Bool.false_eq_true, if_false] <;>
    omega

theorem branchesTaken_record :
    (statistics.record instructionClass taken).branchesTaken =
      statistics.branchesTaken +
        (decide (instructionClass = .branch) && taken).toNat := by
  cases instructionClass <;> cases taken <;> rfl

theorem control_record :
    (statistics.record instructionClass taken).control =
      statistics.control + (decide (instructionClass = .control)).toNat := by
  cases instructionClass <;> cases taken <;> rfl

theorem output_record :
    (statistics.record instructionClass taken).output =
      statistics.output + (decide (instructionClass = .output)).toNat := by
  cases instructionClass <;> cases taken <;> rfl

theorem recordEffect_eq (opcode : Opcode) (effect : Effect) :
    statistics.recordEffect opcode effect =
      { statistics.record opcode.instructionClass effect.taken with
        breakpoints := statistics.breakpoints +
          (decide (effect.outcome = .pause)).toNat } := by
  unfold recordEffect
  cases effect.outcome <;> cases opcode.instructionClass <;>
    cases effect.taken <;> rfl

end Statistics

/-- The class of an operation agrees with what executing it does. -/
theorem Opcode.instructionClass_of_action (opcode : Opcode) :
    decide (opcode.instructionClass = .branch) =
        (match opcode.action with
          | .branch _ => true
          | _ => false) ∧
      decide (opcode.instructionClass = .output) =
        (match opcode.action with
          | .print => true
          | _ => false) ∧
      (opcode.action = .pause → opcode.instructionClass = .control) := by
  cases opcode <;> exact ⟨rfl, rfl, by decide⟩

namespace Instruction

variable {instruction : Instruction} {machine : Machine} {effect : Effect}

/-- What an executed instruction shows is counted by its class. -/
theorem counts_of_effect (effects : instruction.effect machine = .ok effect) :
    (decide (instruction.opcode.instructionClass = .branch) && effect.taken) =
        instruction.isTaken machine ∧
      effect.entry?.toList.length =
        (decide (instruction.opcode.instructionClass = .output)).toNat +
          (decide (effect.outcome = .pause)).toNat ∧
      (effect.outcome = .pause →
        instruction.opcode.instructionClass = .control) := by
  obtain ⟨_, made⟩ := madeBy_of_effect effects
  obtain ⟨branch, output, control⟩ :=
    instruction.opcode.instructionClass_of_action
  rw [made.taken, isTaken_eq, branch, output]
  unfold Effect.outcome
  rw [made.logged]
  cases action : instruction.opcode.action with
  | pause => exact ⟨rfl, rfl, fun _ => control action⟩
  | _ => simp [logged?]

end Instruction

namespace Machine

variable {machine : Machine} {attempt : Attempt} {attempts : List Attempt}

/-- An execution fails and changes nothing, or an instruction has its
effect. -/
inductive Attempt.Comes (attempt : Attempt) : Prop where
  | failed
      (succeeds : attempt.succeeds = false)
      (pauses : attempt.pauses = false)
      (takesBranch : attempt.takesBranch = false)
      (unchanged : attempt.after = attempt.machine)
  | executed {instruction : Instruction} {effect : Effect}
      (effects : instruction.effect attempt.machine = .ok effect)
      (succeeds : attempt.succeeds = true)
      (pauses : attempt.pauses = decide (effect.outcome = .pause))
      (takesBranch : attempt.takesBranch = instruction.isTaken attempt.machine)
      (applied : attempt.after =
        attempt.machine.apply instruction.opcode effect)

theorem Attempt.comes (attempt : Attempt) : attempt.Comes := by
  rcases attempt with ⟨instructions, machine⟩
  cases executed : machine.execute instructions with
  | error executionError stopped =>
      obtain ⟨_, unchanged⟩ := execute_eq_error_iff.mp executed
      apply Attempt.Comes.failed <;>
        simp [succeeds, pauses, takesBranch, result, after, Machine.attempt,
          executed, unchanged]
  | ok outcome next =>
      obtain ⟨instruction, effect, inside, effects, told, applied⟩ :=
        execute_eq_ok_iff_effect.mp executed
      refine .executed effects ?_ ?_ ?_ ?_
      · simp [succeeds, result, Machine.attempt, executed]
      · rw [← told]
        cases outcome <;> simp [pauses, result, Machine.attempt, executed]
      · simp [takesBranch, succeeds, result, Machine.attempt, executed, inside]
      · simp [after, Machine.attempt, executed, applied]

/-- An execution adds to the log at its end. -/
theorem Attempt.log_after (attempt : Attempt) :
    attempt.after.log.toList =
      attempt.machine.log.toList ++ attempt.appended := by
  unfold appended
  cases attempt.comes with
  | failed _ _ _ unchanged => simp [unchanged]
  | executed effects _ _ _ applied => simp [applied, log_apply]

/-- **One execution.**  Counters that account for the past account for the
execution that comes next as well. -/
theorem Attempt.accountsFor (attempt : Attempt)
    (accounts : attempt.machine.statistics.AccountsFor attempts) :
    attempt.after.statistics.AccountsFor (attempts ++ [attempt]) := by
  have log := congrArg List.length attempt.log_after
  rw [List.length_append] at log
  cases attempt.comes with
  | failed succeeds pauses takesBranch unchanged =>
      rw [unchanged] at log ⊢
      have silent : attempt.appended = [] :=
        List.length_eq_zero_iff.mp (by omega)
      refine ⟨?_, accounts.classes, accounts.branches, ?_, ?_,
        accounts.control, ?_⟩
      · simp [accounts.retired, succeeds]
      · simp [accounts.taken, takesBranch]
      · simp [accounts.breakpoints, pauses]
      · simp [← accounts.entries, silent]
  | @executed instruction effect effects succeeds pauses takesBranch applied =>
      obtain ⟨taken, entries, control⟩ :=
        Instruction.counts_of_effect effects
      rw [applied, log_apply, List.length_append] at log
      have shown : attempt.appended.length = effect.entry?.toList.length := by
        omega
      have counted : attempt.after.statistics =
          attempt.machine.statistics.recordEffect instruction.opcode
            effect := by
        rw [applied]
        rfl
      rw [counted, Statistics.recordEffect_eq]
      have one (holds : Attempt → Bool) :
          (attempts ++ [attempt]).countP holds =
            attempts.countP holds + (holds attempt).toNat := by
        rw [List.countP_append, List.countP_singleton]
        cases holds attempt <;> rfl
      refine ⟨?_, ?_, Statistics.branches_record _ _ _ accounts.branches, ?_,
        ?_, ?_, ?_⟩
      · rw [one, succeeds, ← accounts.retired]
        exact Statistics.retired_record _ _ _
      · refine (Statistics.retired_record _ _ _).trans ?_
        rw [accounts.classes]
        exact (Statistics.classes_record _ _ _).symm
      · rw [one, takesBranch, ← taken, ← accounts.taken]
        exact Statistics.branchesTaken_record _ _ _
      · rw [one, pauses, ← accounts.breakpoints]
      · show _ ≤ (Statistics.record _ _ _).control
        rw [Statistics.control_record]
        refine Nat.add_le_add accounts.control ?_
        by_cases paused : effect.outcome = .pause
        · simp [paused, control paused]
        · simp [paused]
      · show _ = (Statistics.record _ _ _).output + (_ + _)
        rw [List.flatMap_append, List.length_append, accounts.entries,
          Statistics.output_record, List.flatMap_singleton, shown, entries]
        omega

/-- **All executions.**  Accesses that execute nothing leave the counters as
they are. -/
theorem accountsFor_afterAll (machine : Machine) (accesses : List Access)
    (accounts : machine.statistics.AccountsFor attempts) :
    (machine.afterAll accesses).statistics.AccountsFor
      (attempts ++ machine.executions accesses) := by
  induction accesses generalizing machine attempts with
  | nil =>
      rw [executions, List.append_nil]
      exact accounts
  | cons access rest inductionHypothesis =>
      cases access with
      | execute instructions =>
          have onward := inductionHypothesis _
            (Attempt.accountsFor ⟨instructions, machine⟩ accounts)
          rw [List.append_assoc] at onward
          exact onward
      | setRegister register value =>
          exact inductionHypothesis (machine.setRegister register value)
            accounts
      | clearLog => exact inductionHypothesis machine.clearLog accounts

theorem accountsFor_fresh (configuration : Configuration) :
    (fresh configuration).statistics.AccountsFor [] := by
  refine ⟨rfl, rfl, rfl, rfl, rfl, Nat.le_refl _, rfl⟩

/-- A new machine accounts for all that is ever asked of it. -/
theorem accountsFor_executions (configuration : Configuration)
    (accesses : List Access) :
    ((fresh configuration).afterAll accesses).statistics.AccountsFor
      ((fresh configuration).executions accesses) :=
  accountsFor_afterAll _ accesses (accountsFor_fresh configuration)

end Machine

end MiniMips
