import MiniMips.Proofs.Machine.Accounting
import MiniMips.Proofs.Machine.Iteration
import MiniMips.Proofs.Simulator.Answers

/-!
Contract: how a simulator counts its runs.

Owns:
- the runs of a history since its last reset;
- that executing instructions counts no run;
- that a simulator has counted exactly these runs, unless its source is no
  program.
-/

namespace MiniMips

namespace Call

/-- Whether a call resets the machine.  Loading a file does unless there is no
text to be read. -/
def resets : Call → Bool
  | .setSource _ | .reset => true
  | .loadFile files path => (files path).isSome
  | .preProcess | .run _ | .step | .clearLog => false

def isRun : Call → Bool
  | .run _ => true
  | .setSource _ | .loadFile _ _ | .reset | .preProcess | .step
  | .clearLog => false

end Call

theorem Statistics.runs_recordEffect (statistics : Statistics)
    (opcode : Opcode) (effect : Effect) :
    (statistics.recordEffect opcode effect).runs = statistics.runs := by
  rw [recordEffect_eq]
  show (statistics.record _ _).runs = _
  unfold record recordClass
  cases opcode.instructionClass <;> cases effect.taken <;> rfl

namespace Machine

variable {instructions : Array Instruction} {machine next stopped : Machine}
  {outcome : Outcome} {fuel : Nat} {budget : Option Nat} {runEnd : RunEnd}

theorem execute_runs
    (executed : machine.execute instructions = .ok outcome next) :
    next.statistics.runs = machine.statistics.runs := by
  obtain ⟨instruction, effect, _, _, _, rfl⟩ :=
    execute_eq_ok_iff_effect.mp executed
  exact Statistics.runs_recordEffect machine.statistics _ _

theorem runs_of_run
    (ran : machine.run instructions fuel budget = some (runEnd, stopped)) :
    stopped.statistics.runs = machine.statistics.runs := by
  obtain ⟨count, first⟩ := firstStop_of_run ran
  obtain ⟨outcome, iterates, _⟩ := first.iterate_eq
  apply iterate_induction (motive := fun _ reached =>
    reached.statistics.runs = machine.statistics.runs) rfl _ iterates
  intro count reached outcome next sameRuns executed
  rw [execute_runs executed, sameRuns]

end Machine

namespace Simulator

/-- How many runs there are after the last reset among calls. -/
def runsSinceReset (calls : List Call) : Nat :=
  (calls.reverse.takeWhile (fun call => !call.resets)).countP Call.isRun

variable {configuration : Configuration} {simulator : Simulator} {call : Call}
  {response : Response} {source : String} {calls : List Call}

theorem runsSinceReset_concat (calls : List Call) (call : Call) :
    runsSinceReset (calls ++ [call]) =
      if call.resets then 0
      else runsSinceReset calls + call.isRun.toNat := by
  unfold runsSinceReset
  rw [List.reverse_append, List.reverse_singleton, List.singleton_append,
    List.takeWhile_cons]
  cases call.resets with
  | true => rfl
  | false =>
      simp only [Bool.not_false, if_true, List.countP_cons, Bool.false_eq_true,
        if_false]
      cases call.isRun <;> rfl

/-- What the counter of runs says: the runs since the last reset, or none where
there is no program to run. -/
def CountsRuns (simulator : Simulator) (calls : List Call) : Prop :=
  simulator.machine.statistics.runs =
    match assemble simulator.source with
    | .ok _ => runsSinceReset calls
    | .error _ => 0

theorem countsRuns_reset (simulator : Simulator) (resets : call.resets = true) :
    CountsRuns simulator.reset (calls ++ [call]) := by
  unfold CountsRuns
  rw [runsSinceReset_concat, if_pos resets]
  cases assemble simulator.reset.source <;> rfl

/-- A call that neither resets nor runs keeps the count. -/
theorem CountsRuns.of_same {after : Simulator}
    (counts : CountsRuns simulator calls) (noReset : call.resets = false)
    (noRun : call.isRun = false) (sameSource : after.source = simulator.source)
    (sameRuns : after.machine.statistics.runs =
      simulator.machine.statistics.runs) :
    CountsRuns after (calls ++ [call]) := by
  unfold CountsRuns at counts ⊢
  rw [sameRuns, counts, sameSource, runsSinceReset_concat, noReset, noRun]
  rfl

theorem CountsRuns.answered (counts : CountsRuns simulator calls)
    (answered : Answered simulator call response) :
    CountsRuns response.simulator (calls ++ [call]) := by
  cases answered with
  | sourceSet source =>
      exact countsRuns_reset { simulator with source := source } rfl
  | @fileLoaded files path text found =>
      have resets : (Call.loadFile files path).resets = true := by
        rw [Call.resets, found]
        rfl
      exact countsRuns_reset
        { simulator with fileName? := some path, source := text } resets
  | @fileMissing files path missing =>
      have noReset : (Call.loadFile files path).resets = false := by
        rw [Call.resets, missing]
        rfl
      exact counts.of_same noReset rfl rfl rfl
  | reset => exact countsRuns_reset simulator rfl
  | installed | notInstalled | notStepped | logCleared =>
      exact counts.of_same rfl rfl rfl rfl
  | @ran assembled fuel runEnd stopped assembles ends =>
      unfold CountsRuns at counts ⊢
      rw [assembles] at counts
      show stopped.statistics.runs + 1 =
        match assemble simulator.source with
        | .ok _ => _
        | .error _ => 0
      rw [assembles, Machine.runs_of_run ends, counts, runsSinceReset_concat]
      rfl
  | notRun refused =>
      unfold CountsRuns at counts ⊢
      rw [refused] at counts
      show simulator.machine.statistics.runs =
        match assemble simulator.source with
        | .ok _ => _
        | .error _ => 0
      rw [refused, counts]
  | pastEnd prepared past =>
      rw [prepared.frame]
      exact counts.of_same rfl rfl rfl rfl
  | faulted prepared inside faults =>
      rw [prepared.frame]
      exact counts.of_same rfl rfl rfl rfl
  | @stepped ready outcome next prepared inside executed =>
      have sameRuns := Machine.execute_runs executed
      rw [prepared.frame] at sameRuns ⊢
      exact counts.of_same rfl rfl rfl sameRuns

theorem countsRuns_of_after?
    (history : (new source configuration).after? calls = some simulator) :
    CountsRuns simulator calls := by
  refine after?_induction (motive := fun past reached =>
    CountsRuns reached past) ?_ ?_ history
  · unfold CountsRuns
    cases assemble (new source configuration).source <;> rfl
  · intro past before call response counts answered
    exact counts.answered answered

/-- **Accounting.**  Whatever is asked of a machine, its counters account for
it: every execution that succeeds is counted once, in its class, a branch also
by what became of its condition, and a pause also as such; and all that these
executions put at the end of the log is output or a pause.  A simulator has
counted the runs since its last reset where its source is a program, and none
where it is not. -/
theorem counters_account :
    (∀ (configuration : Configuration) (accesses : List Machine.Access),
      ((Machine.fresh configuration).afterAll accesses).statistics.AccountsFor
          ((Machine.fresh configuration).executions accesses) ∧
        ∀ attempt ∈ (Machine.fresh configuration).executions accesses,
          attempt.after.log.toList =
            attempt.machine.log.toList ++ attempt.appended) ∧
    ∀ (configuration : Configuration) (source : String) (calls : List Call)
      (simulator : Simulator),
      (new source configuration).after? calls = some simulator →
      simulator.machine.statistics.runs =
        match assemble simulator.source with
        | .ok _ => runsSinceReset calls
        | .error _ => 0 := by
  constructor
  · intro configuration accesses
    exact ⟨Machine.accountsFor_executions configuration accesses,
      fun attempt _ => attempt.log_after⟩
  · intro configuration source calls simulator history
    exact countsRuns_of_after? history

/-- Two runs over a breakpoint, which a new source has reset a run before; a
run of a source that is no program; and a breakpoint that is executed once and
then left behind. -/
theorem counters_account_breakpoint :
    let small := { Configuration.standard with memory := ⟨8, none⟩ }
    let pausing := #[Instruction.bare .breakpoint 1]
    (∃ simulator, (new "nop" small).after?
        [.run 9, .setSource "break\nnop", .run 9, .run 9] = some simulator ∧
      simulator.machine.statistics.runs = 2) ∧
    (∃ simulator, (new "nop $t0" small).after? [.run 9] = some simulator ∧
      simulator.machine.statistics.runs = 0) ∧
    let machine := (Machine.fresh small).afterAll
      [.execute pausing, .clearLog, .execute pausing]
    machine.statistics.retired = 1 ∧ machine.statistics.breakpoints = 1 := by
  intro small pausing
  obtain ⟨machines, simulators⟩ := counters_account
  refine ⟨?_, ?_, ?_⟩
  · have answered : ((new "nop" small).after?
        [.run 9, .setSource "break\nnop", .run 9, .run 9]).map
          (·.source) = some "break\nnop" := by
      decide +kernel
    obtain ⟨simulator, history, source⟩ := Option.map_eq_some_iff.mp answered
    have runs := simulators _ _ _ simulator history
    rw [source] at runs
    refine ⟨simulator, history, runs.trans ?_⟩
    decide +kernel
  · have answered : ((new "nop $t0" small).after? [.run 9]).map (·.source) =
        some "nop $t0" := by
      decide +kernel
    obtain ⟨simulator, history, source⟩ := Option.map_eq_some_iff.mp answered
    have runs := simulators _ _ _ simulator history
    rw [source] at runs
    refine ⟨simulator, history, runs.trans ?_⟩
    decide +kernel
  · intro machine
    obtain ⟨accounts, _⟩ := machines small
      [.execute pausing, .clearLog, .execute pausing]
    refine ⟨accounts.retired.trans ?_, accounts.breakpoints.trans ?_⟩
    · decide +kernel
    · decide +kernel

end Simulator

end MiniMips
