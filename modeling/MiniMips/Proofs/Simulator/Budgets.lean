import MiniMips.Proofs.Machine.Agreement
import MiniMips.Proofs.Simulator.Running

/-!
Contract: a step budget only slices a run.

Owns:
- simulators that differ in their budget only, and the responses that report a
  budget which is used up;
- that a run with a budget comes to the end of the run without one, if it is
  repeated as long as its budget stops it.

Each slice starts from the machine that the slice before it has left, and that
one differs from the machine of the run without a budget in nothing but the
number of runs it has counted.
-/

namespace MiniMips

/-- A response that reports a budget which is used up. -/
def Response.HitsLimit (response : Response) : Prop :=
  ∃ limit line,
    response.result = .error (.execution (.stepLimitExceeded limit line))

namespace Simulator

def withBudget (simulator : Simulator) (budget : Option Nat) : Simulator :=
  { simulator with
    configuration := { simulator.configuration with
      general := { simulator.configuration.general with
        maxSteps? := budget } } }

variable {simulator : Simulator} {assembled : Assembled} {count limit : Nat}
  {runEnd : RunEnd} {stopped : Machine} {response : Response}

theorem hitsLimit_outOfBudget (simulator : Simulator) :
    (simulator.finishRun .outOfBudget).HitsLimit :=
  ⟨_, _, rfl⟩

/-- A run that is not stopped by its budget does not report it. -/
theorem not_hitsLimit_finishRun {budget : Option Nat} {start : Machine}
    {instructions : Array Instruction}
    (first : Machine.FirstStop instructions budget start count runEnd stopped)
    (affordable : runEnd ≠ .outOfBudget) (simulator : Simulator) :
    ¬(simulator.finishRun runEnd).HitsLimit := by
  rintro ⟨limit, line, reported⟩
  cases runEnd with
  | finished => cases reported
  | paused => cases reported
  | outOfBudget => exact affordable rfl
  | failed executionError =>
      cases reported
      obtain ⟨_, _, reason⟩ := first.iterate_eq
      obtain ⟨_, _, failed⟩ := Machine.failed_of_stopReason? reason
      exact Machine.execute_ne_stepLimitExceeded limit line failed

theorem not_hitsLimit_refused (assemblyError : AssemblyError)
    (simulator : Simulator) :
    ¬Response.HitsLimit ⟨.error assemblyError.simulatorError, simulator⟩ := by
  rintro ⟨limit, line, reported⟩
  cases assemblyError with
  | lex lexError => cases reported
  | parse parseError => cases reported

/-- Without a budget the machine comes to its first stop after some count of
instructions.  With one, repeated runs come to the same stop.  The induction is
on the count: every slice that is cut off makes it smaller. -/
theorem runsWhile_of_firstStop
    (assembles : assemble simulator.source = .ok assembled)
    (budget : simulator.configuration.general.maxSteps? = some limit)
    (positive : 0 < limit)
    (first : Machine.FirstStop assembled.program.instructions none
      simulator.machine count runEnd stopped) :
    ∃ calls reached,
      RunsWhile Response.HitsLimit simulator calls
        ({ simulator.install assembled with
          machine := reached }.finishRun runEnd) ∧
      stopped.SameButRuns reached ∧
      ∀ call ∈ calls,
        call.2.simulator.machine.statistics.retired =
          call.1.machine.statistics.retired + limit := by
  induction count using Nat.strongRecOn generalizing simulator stopped with
  | ind count inductionHypothesis =>
  have affordable := first.ne_outOfBudget
  rcases first.slice limit with within | ⟨reached, limitLe, used, rest⟩
  · rw [← budget] at within
    exact ⟨[], stopped,
      .last ((returns_iff_of_firstStop assembles within).mpr rfl)
        (not_hitsLimit_finishRun within affordable _),
      .refl stopped, by simp⟩
  · rw [← budget] at used
    have returns := (returns_iff_of_firstStop assembles used).mpr rfl
    have sliced := retired_of_firstStop used
    -- The next slice starts from what this one has left.  That machine has
    -- counted a run, which has no influence on where the rest stops.
    let slice := ({ simulator.install assembled with
      machine := reached }.finishRun .outOfBudget).simulator
    have counted : reached.SameButRuns slice.machine :=
      Machine.sameButRuns_recordRun reached 0
    obtain ⟨left, restCounted, sameLeft⟩ := rest.exists_of_sameButRuns counted
    have shorter : count - limit < count := by omega
    have reassembles : assemble slice.source = .ok assembled := assembles
    obtain ⟨calls, last, runs, sameLast, retired⟩ :=
      inductionHypothesis (count - limit) shorter reassembles budget
        restCounted
    refine ⟨_ :: calls, last,
      .more returns (hitsLimit_outOfBudget _) runs,
      sameLeft.trans sameLast, List.forall_mem_cons.mpr ⟨sliced, retired⟩⟩

/-- **Budgets.**  If a run without a budget returns, then runs with a positive
budget that are repeated as long as the budget stops them come to an end.  The
last of them returns what the run without a budget returns, and its simulator
differs in the budget and the number of runs only.  Every run that the budget
has stopped has executed as many instructions as the budget allows. -/
theorem sliced_run_returns_unsliced (simulator : Simulator) (limit : Nat)
    (response : Response) (positive : 0 < limit)
    (unlimited : simulator.configuration.general.maxSteps? = none)
    (returns : simulator.Returns response) :
    ∃ calls machine,
      RunsWhile Response.HitsLimit (simulator.withBudget (some limit)) calls
        ⟨response.result,
          { response.simulator.withBudget (some limit) with
            machine := machine }⟩ ∧
      response.simulator.machine.SameButRuns machine ∧
      ∀ call ∈ calls,
        call.2.simulator.machine.statistics.retired =
          call.1.machine.statistics.retired + limit := by
  cases assembles : assemble simulator.source with
  | error assemblyError =>
      obtain ⟨fuel, returned⟩ := returns
      rw [run_of_refused assembles] at returned
      cases returned
      have reassembles : assemble (simulator.withBudget (some limit)).source =
          .error assemblyError := assembles
      have returnsSliced : (simulator.withBudget (some limit)).Returns
          ⟨.error assemblyError.simulatorError,
            (simulator.withBudget (some limit)).withState .idle⟩ :=
        ⟨fuel, run_of_refused reassembles fuel⟩
      exact ⟨[], simulator.machine,
        .last returnsSliced (not_hitsLimit_refused assemblyError _),
        .refl simulator.machine, by simp⟩
  | ok assembled =>
      obtain ⟨count, runEnd, stopped, first, rfl⟩ :=
        (returns_iff assembles).mp returns
      rw [unlimited] at first
      have affordable := first.ne_outOfBudget
      have reassembles : assemble (simulator.withBudget (some limit)).source =
          .ok assembled := assembles
      obtain ⟨calls, reached, runs, same, retired⟩ :=
        runsWhile_of_firstStop reassembles rfl positive first
      refine ⟨calls, reached.recordRun 0, ?_, ?_, retired⟩
      · cases runEnd with
        | outOfBudget => exact absurd rfl affordable
        | finished => exact runs
        | paused => exact runs
        | failed executionError => exact runs
      · have counted := Machine.sameButRuns_recordRun stopped 0
        exact counted.symm.trans
          (same.trans (Machine.sameButRuns_recordRun reached 0))

/-- Three instructions in slices of two. -/
theorem sliced_run_returns_unsliced_nop :
    let simulator := new "nop\nnop\nnop"
      { Configuration.standard with memory := ⟨8, none⟩ }
    ∃ calls final,
      RunsWhile Response.HitsLimit (simulator.withBudget (some 2)) calls
        final ∧
      final.result = .ok () ∧
      final.simulator.state = .halted ∧
      final.simulator.machine.pc = 3 := by
  intro simulator
  have results : (simulator.run 4).map (fun response => (response.result,
      response.simulator.state, response.simulator.machine.pc)) =
        some (.ok (), .halted, 3) := by
    decide +kernel
  obtain ⟨response, returned, same⟩ := Option.map_eq_some_iff.mp results
  obtain ⟨succeeds, halted, pc⟩ : response.result = .ok () ∧
      response.simulator.state = .halted ∧
      response.simulator.machine.pc = 3 := by
    simpa using same
  obtain ⟨calls, machine, runs, sameMachine, _⟩ :=
    sliced_run_returns_unsliced simulator 2 response (by decide) rfl
      ⟨4, returned⟩
  exact ⟨calls, _, runs, succeeds, halted, sameMachine.agrees.pc ▸ pc⟩

end Simulator

end MiniMips
