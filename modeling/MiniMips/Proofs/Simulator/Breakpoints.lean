import MiniMips.Proofs.Assembly.Breakpoints
import MiniMips.Proofs.Simulator.Running

/-!
Contract: breakpoints are transparent to a simulation.

Owns:
- the responses that report a pause, and the errors of a source in which
  breakpoints are made idle;
- that a run which is resumed as long as it pauses comes to the end of one run
  of the source with every breakpoint made idle.

Every run of the resumed ones assembles the source again.  It goes on after the
breakpoint because the machine is left alone.
-/

namespace MiniMips

def Response.IsPaused (response : Response) : Prop :=
  response.simulator.state = .paused

/-- An error that names the operation that it is about names the idle one in
place of a breakpoint. -/
def SimulatorError.withoutBreakpoint : SimulatorError → SimulatorError
  | .parse parseError => .parse parseError.withoutBreakpoint
  | simulatorError => simulatorError

theorem AssemblyError.simulatorError_withoutBreakpoint
    (assemblyError : AssemblyError) :
    assemblyError.withoutBreakpoint.simulatorError =
      assemblyError.simulatorError.withoutBreakpoint := by
  cases assemblyError <;> rfl

namespace Simulator

variable {configuration : Configuration} {simulator : Simulator}
  {assembled : Assembled} {source : String} {response : Response}
  {count : Nat} {runEnd : RunEnd} {plain stopped : Machine}

theorem isPaused_finishRun_iff (simulator : Simulator) (runEnd : RunEnd) :
    (simulator.finishRun runEnd).IsPaused ↔ runEnd = .paused := by
  cases runEnd <;> simp [Response.IsPaused, finishRun, stateAfterRun]

/-- Without breakpoints the machine comes to its first stop after some count of
instructions.  With them, runs that are resumed come to the same stop.  The
induction is on the count: every pause comes after at least one instruction. -/
theorem runsWhile_isPaused_of_firstStop
    (assembles : assemble simulator.source = .ok assembled)
    (unlimited : simulator.configuration.general.maxSteps? = none)
    (first : Machine.FirstStop
      (assembled.program.instructions.map Instruction.withoutBreakpoint) none
      plain count runEnd stopped)
    (agrees : simulator.machine.Agrees plain) :
    ∃ calls reached,
      RunsWhile Response.IsPaused simulator calls
        ({ simulator.install assembled with
          machine := reached }.finishRun runEnd) ∧
      reached.Agrees stopped := by
  induction count using Nat.strongRecOn generalizing simulator plain with
  | ind count inductionHypothesis =>
  have unpaused := first.ne_paused_withoutBreakpoints
  rcases first.pausing agrees with
    ⟨reached, same, agreesEnd⟩ |
    ⟨earlier, reached, idle, positive, le, pauses, agreesPause, rest⟩
  · rw [← unlimited] at same
    refine ⟨[], reached,
      .last ((returns_iff_of_firstStop assembles same).mpr rfl) ?_, agreesEnd⟩
    rw [isPaused_finishRun_iff]
    exact unpaused
  · rw [← unlimited] at pauses
    have returns := (returns_iff_of_firstStop assembles pauses).mpr rfl
    -- The next run finds the machine after the breakpoint, and the same
    -- program, since it assembles the same source.
    let paused := ({ simulator.install assembled with
      machine := reached }.finishRun .paused).simulator
    have reassembles : assemble paused.source = .ok assembled := assembles
    have counted : reached.Agrees paused.machine :=
      (Machine.sameButRuns_recordRun reached 0).agrees
    have shorter : count - earlier < count := by omega
    obtain ⟨calls, last, runs, agreesEnd⟩ :=
      inductionHypothesis (count - earlier) shorter reassembles unlimited rest
        (counted.symm.trans agreesPause)
    exact ⟨_ :: calls, last,
      .more returns ((isPaused_finishRun_iff _ _).mpr rfl) runs, agreesEnd⟩

/-- A run of a fresh simulator over a source with every breakpoint made idle,
and the resumed runs of the source itself. -/
theorem exists_runsWhile_isPaused (configuration : Configuration)
    (source : String) (response : Response)
    (unlimited : configuration.general.maxSteps? = none)
    (returns :
      (new (sourceWithoutBreakpoints source) configuration).Returns response) :
    ∃ calls final,
      RunsWhile Response.IsPaused (new source configuration) calls final ∧
      final.result.mapError SimulatorError.withoutBreakpoint =
        response.result ∧
      final.simulator.state = response.simulator.state ∧
      final.simulator.machine.Agrees response.simulator.machine := by
  have replaced := assemble_sourceWithoutBreakpoints source
  cases assembles : assemble source with
  | error assemblyError =>
      rw [assembles] at replaced
      have refuses : assemble (new (sourceWithoutBreakpoints source)
          configuration).source = .error assemblyError.withoutBreakpoint :=
        replaced
      have refusesSource : assemble (new source configuration).source =
          .error assemblyError := assembles
      obtain ⟨fuel, returned⟩ := returns
      rw [run_of_refused refuses] at returned
      cases returned
      have idle : ¬Response.IsPaused ⟨.error assemblyError.simulatorError,
          (new source configuration).withState .idle⟩ := by
        simp [Response.IsPaused, withState]
      refine ⟨[], _, .last ⟨fuel, run_of_refused refusesSource fuel⟩ idle,
        ?_, rfl, .refl _⟩
      rw [AssemblyError.simulatorError_withoutBreakpoint]
      rfl
  | ok assembled =>
      rw [assembles] at replaced
      have accepts : assemble (new (sourceWithoutBreakpoints source)
          configuration).source = .ok assembled.withoutBreakpoints := replaced
      have acceptsSource : assemble (new source configuration).source =
          .ok assembled := assembles
      obtain ⟨count, runEnd, stopped, first, rfl⟩ :=
        (returns_iff accepts).mp returns
      have budget : (new (sourceWithoutBreakpoints source)
          configuration).configuration.general.maxSteps? = none := unlimited
      rw [budget] at first
      obtain ⟨calls, reached, runs, agrees⟩ :=
        runsWhile_isPaused_of_firstStop acceptsSource unlimited first
          (.refl _)
      have affordable := first.ne_outOfBudget
      refine ⟨calls, _, runs, ?_, rfl, ?_⟩
      · cases runEnd with
        | outOfBudget => exact absurd rfl affordable
        | finished => rfl
        | paused => rfl
        | failed executionError => rfl
      · have counted := (Machine.sameButRuns_recordRun stopped 0).agrees
        have countedReached :=
          (Machine.sameButRuns_recordRun reached 0).agrees
        exact countedReached.symm.trans (agrees.trans counted)

/-- **Breakpoints.**  Executed one after the other, instructions give the same
answers with and without the breakpoints among them, up to the pauses, and the
machines stay alike, up to the count of breakpoints and the notes of pauses in
the output.  So a run of a fresh simulator that is resumed as long as it pauses
ends as one run of the source with every breakpoint made idle does.  The error
of a source that is refused because a breakpoint has operands names the
breakpoint in one and the idle instruction in the other. -/
theorem breakpoints_transparent :
    (∀ (instructions : Array Instruction) (start : Machine) (count : Nat),
      List.Forall₂
        (fun call other =>
          other.1 = call.1.map (fun _ => .proceed) ∧
          Machine.InStep start call.2 other.2)
        (start.attempts instructions count)
        (start.attempts (instructions.map Instruction.withoutBreakpoint)
          count)) ∧
    (∀ word, (LogEntry.value word).text ≠ LogEntry.paused.text) ∧
    ∀ (configuration : Configuration) (source : String) (response : Response),
      configuration.general.maxSteps? = none →
      (new (sourceWithoutBreakpoints source) configuration).Returns
        response →
      ∃ calls final,
        RunsWhile Response.IsPaused (new source configuration) calls final ∧
        final.result.mapError SimulatorError.withoutBreakpoint =
          response.result ∧
        final.simulator.state = response.simulator.state ∧
        final.simulator.machine.Agrees response.simulator.machine := by
  refine ⟨?_, LogEntry.text_ne_paused, exists_runsWhile_isPaused⟩
  intro instructions start count
  exact (Machine.InStep.refl start).attempts instructions count

/-- A breakpoint in a loop, and one at the end of the program. -/
theorem breakpoints_transparent_loop :
    let source :=
      "li $t0, -1\nagain: break\naddi $t0, $t0, 1\nblez $t0, again\nBREAK"
    let configuration := { Configuration.standard with memory := ⟨8, none⟩ }
    ∃ calls final,
      RunsWhile Response.IsPaused (new source configuration) calls final ∧
      final.result = .ok () ∧
      final.simulator.machine.pc = 5 := by
  intro source configuration
  have results : ((new (sourceWithoutBreakpoints source) configuration).run
      9).map (fun response =>
        (response.result, response.simulator.machine.pc)) =
          some (.ok (), 5) := by
    decide +kernel
  obtain ⟨response, returned, same⟩ := Option.map_eq_some_iff.mp results
  obtain ⟨succeeds, pc⟩ : response.result = .ok () ∧
      response.simulator.machine.pc = 5 := by
    simpa using same
  obtain ⟨_, _, resumed⟩ := breakpoints_transparent
  obtain ⟨calls, final, runs, result, _, agrees⟩ :=
    resumed configuration source response rfl ⟨9, returned⟩
  refine ⟨calls, final, runs, ?_, agrees.pc.trans pc⟩
  rw [succeeds] at result
  cases answers : final.result with
  | ok value => rfl
  | error simulatorError =>
      rw [answers] at result
      cases result

/-- The result need not be the same altogether: where a breakpoint has an
operand, the errors name different operations. -/
theorem resumed_result_ne_of_operand :
    ¬∀ response,
      (new (sourceWithoutBreakpoints "break $t0\n")
        Configuration.standard).Returns response →
      ∃ calls final,
        RunsWhile Response.IsPaused
          (new "break $t0\n" Configuration.standard) calls final ∧
        final.result = response.result ∧
        final.simulator.machine.Agrees response.simulator.machine := by
  intro claimed
  have refuses : assemble
      (new "break $t0\n" Configuration.standard).source =
        .error (.parse ⟨1, .operandMismatch "break" "" "$8"⟩) := by
    decide +kernel
  have refusesIdle : assemble (new (sourceWithoutBreakpoints "break $t0\n")
      Configuration.standard).source =
        .error (.parse ⟨1, .operandMismatch "nop" "" "$8"⟩) := by
    decide +kernel
  obtain ⟨calls, final, runs, same, _⟩ :=
    claimed _ ⟨0, run_of_refused refusesIdle 0⟩
  have once : RunsWhile Response.IsPaused
      (new "break $t0\n" Configuration.standard) [] _ :=
    .last ⟨0, run_of_refused refuses 0⟩
      (by simp [Response.IsPaused, withState])
  obtain ⟨_, rfl⟩ := runs.unique once
  simp [AssemblyError.simulatorError] at same

end Simulator

end MiniMips
