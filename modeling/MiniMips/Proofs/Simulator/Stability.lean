import MiniMips.Proofs.Machine.Agreement
import MiniMips.Proofs.Simulator.Running

/-!
Contract: the calls that leave a simulator as it is.

Owns:
- that a call that is refused, because a file cannot be read or a source cannot
  be assembled, changes nothing;
- the simulators that are stuck: they have halted, and a run or a step has the
  same reason to stop at once;
- that a simulator which has halted past the end of its program, or because of
  a fault, is stuck, and that a stuck simulator answers alike for ever.

Does not own: a simulator that has halted because its budget was used up.  Its
next run goes on.
-/

namespace MiniMips

namespace Call

/-- Whether a call executes instructions. -/
def executes : Call → Bool
  | .run _ | .step => true
  | _ => false

/-- Whether a call assembles or executes the current source.  A run is given
some fuel. -/
def drives : Call → Bool
  | .run fuel => decide (0 < fuel)
  | .step | .preProcess => true
  | _ => false

end Call

namespace Simulator

/-- The simulators whose last run or step has failed with an error, and which
have not been reset since. -/
inductive HaltedBy (configuration : Configuration)
    (executionError : ExecutionError) : Simulator → Prop where
  | failed {simulator : Simulator} {call : Call} {response : Response}
      (before : Reachable configuration simulator)
      (answers : simulator.answer? call = some response)
      (fails : response.result = .error (.execution executionError)) :
      HaltedBy configuration executionError response.simulator
  | kept {simulator : Simulator} {call : Call} {response : Response}
      (before : HaltedBy configuration executionError simulator)
      (answers : simulator.answer? call = some response)
      (rests : call.executes = false)
      (halted : response.simulator.state = .halted) :
      HaltedBy configuration executionError response.simulator

/-- A simulator that has halted where a driver stops at once, and not for its
budget. -/
structure Stuck (runEnd : RunEnd) (simulator : Simulator) : Prop where
  halted : simulator.state = .halted
  upToDate : simulator.UpToDate
  stops : simulator.machine.stopReason? simulator.program.instructions
    simulator.configuration.general.maxSteps? 0 .proceed = some runEnd
  unlimited : runEnd ≠ .outOfBudget

variable {configuration : Configuration} {simulator after : Simulator}
  {call : Call} {calls : List Call} {response : Response} {runEnd : RunEnd}
  {machine : Machine} {simulatorError : SimulatorError}
  {executionError : ExecutionError}

theorem Reachable.after? (reachable : Reachable configuration simulator)
    (history : simulator.after? calls = some after) :
    Reachable configuration after := by
  induction calls generalizing simulator with
  | nil =>
      cases history
      exact reachable
  | cons call rest inductionHypothesis =>
      rw [Simulator.after?] at history
      cases answers : simulator.answer? call with
      | none =>
          rw [answers] at history
          contradiction
      | some response =>
          rw [answers] at history
          exact inductionHypothesis (reachable.answered answers) history

/-! ## Refused calls -/

/-- A run that is not refused ends well or with an execution error. -/
theorem finishRun_result_eq_or (simulator : Simulator) (runEnd : RunEnd) :
    (simulator.finishRun runEnd).result = .ok () ∨
      ∃ executionError, (simulator.finishRun runEnd).result =
        .error (.execution executionError) := by
  cases runEnd with
  | finished => exact .inl rfl
  | paused => exact .inl rfl
  | failed executionError => exact .inr ⟨executionError, rfl⟩
  | outOfBudget => exact .inr ⟨_, rfl⟩

theorem Coherent.answered_refused (coherent : Coherent simulator)
    (answered : Answered simulator call response)
    (failed : response.result = .error simulatorError)
    (refused : ∀ executionError, simulatorError ≠ .execution executionError) :
    response.simulator = simulator := by
  cases answered with
  | fileMissing missing => rfl
  | notInstalled notAssembled => rfl
  | notRun notAssembled =>
      exact coherent.withState_idle_of_refused notAssembled
  | notStepped resting notAssembled =>
      exact coherent.withState_idle_of_refused notAssembled
  | @ran assembled _ runEnd stopped assembles ends =>
      rcases finishRun_result_eq_or
          { simulator.install assembled with machine := stopped } runEnd with
        succeeded | ⟨executionError, faulted⟩
      · rw [succeeded] at failed
        contradiction
      · rw [faulted] at failed
        cases failed
        exact absurd rfl (refused executionError)
  | @faulted _ executionError prepared inside faults =>
      cases failed
      exact absurd rfl (refused executionError)
  | _ => cases failed

/-- **Refusals.**  A call that fails for any other reason than the execution of
an instruction has changed nothing at all. -/
theorem refused_call_unchanged (configuration : Configuration)
    (simulator : Simulator) (call : Call) (response : Response)
    (simulatorError : SimulatorError)
    (reachable : Reachable configuration simulator)
    (answers : simulator.answer? call = some response)
    (failed : response.result = .error simulatorError)
    (refused : ∀ executionError, simulatorError ≠ .execution executionError) :
    response.simulator = simulator :=
  reachable.coherent.answered_refused (answered_of_answer? answers) failed
    refused

/-- A step of a source that is no program, after another source was run. -/
theorem refused_call_unchanged_mismatch :
    ∃ simulator response,
      (new "nop" { Configuration.standard with memory := ⟨8, none⟩ }).after?
        [.run 2, .setSource "add"] = some simulator ∧
      simulator.answer? .step = some response ∧
      response.result = .error (.parse ⟨1,
        .operandMismatch "add" "$rd, $rs, $rt" ""⟩) ∧
      response.simulator = simulator := by
  have returned : ((new "nop" { Configuration.standard with
      memory := ⟨8, none⟩ }).after? [.run 2, .setSource "add"]).isSome := by
    decide +kernel
  obtain ⟨simulator, history⟩ := Option.isSome_iff_exists.mp returned
  have results : ((new "nop" { Configuration.standard with
      memory := ⟨8, none⟩ }).after? [.run 2, .setSource "add"]).map
        (fun simulator => simulator.step.result) =
          some (.error (.parse ⟨1,
            .operandMismatch "add" "$rd, $rs, $rt" ""⟩)) := by
    decide +kernel
  rw [history] at results
  have failed := Option.some.inj results
  have unchanged := refused_call_unchanged _ simulator .step simulator.step _
    ((Reachable.new "nop").after? history) rfl failed (by simp)
  exact ⟨simulator, simulator.step, history, rfl, failed, unchanged⟩

/-! ## Stuck simulators -/

theorem Stuck.of_agrees (stuck : Stuck runEnd simulator)
    (agrees : simulator.machine.Agrees machine) :
    Stuck runEnd { simulator with machine := machine } where
  halted := stuck.halted
  upToDate := stuck.upToDate
  stops := (agrees.stopReason?_eq _ _ _ _).symm.trans stuck.stops
  unlimited := stuck.unlimited

theorem Stuck.stateAfterRun_eq (stuck : Stuck runEnd simulator) :
    stateAfterRun runEnd = .halted := by
  have unpaused := Machine.ne_paused_of_stopReason? stuck.stops
  cases runEnd with
  | paused => exact absurd rfl unpaused
  | finished => rfl
  | failed _ => rfl
  | outOfBudget => rfl

theorem with_machine_of_halted (halted : simulator.state = .halted)
    (machine : Machine) :
    { simulator with machine := machine, state := .halted } =
      { simulator with machine := machine } := by
  rw [← halted]

theorem Stuck.run_eq (stuck : Stuck runEnd simulator) {fuel : Nat}
    (positive : 0 < fuel) :
    simulator.run fuel = some ⟨simulator.runResult runEnd,
      { simulator with machine := simulator.machine.recordRun 0 }⟩ := by
  have first : Machine.FirstStop simulator.program.instructions
      simulator.configuration.general.maxSteps? simulator.machine 0 runEnd
      simulator.machine :=
    Machine.FirstStop.zero
      (congrArg (Option.map fun runEnd => (runEnd, simulator.machine))
        stuck.stops)
  rw [run_of_assembles stuck.upToDate, Machine.run_of_firstStop first positive]
  show some (simulator.finishRun runEnd) = _
  unfold finishRun
  rw [stuck.stateAfterRun_eq, with_machine_of_halted stuck.halted]
  cases runEnd <;> rfl

theorem Stuck.step_eq (stuck : Stuck runEnd simulator) :
    simulator.step = ⟨simulator.runResult runEnd, simulator⟩ := by
  have coherent : Coherent simulator := by
    apply stuck.upToDate.coherent
    rw [stuck.halted]
    decide
  have unchanged := with_machine_of_halted stuck.halted simulator.machine
  rw [step_eq_advance coherent stuck.upToDate]
  show simulator.advance = _
  cases runEnd with
  | finished =>
      rw [advance_of_past (Machine.finished_of_stopReason? stuck.stops)]
      exact congrArg (Response.mk (.ok ())) unchanged
  | failed executionError =>
      obtain ⟨inside, stopped, failed⟩ :=
        Machine.failed_of_stopReason? stuck.stops
      obtain ⟨_, untouched⟩ := Machine.execute_eq_error_iff.mp failed
      rw [advance_of_failed inside failed, untouched]
      exact congrArg (Response.mk (.error (.execution executionError)))
        unchanged
  | paused =>
      exact absurd rfl (Machine.ne_paused_of_stopReason? stuck.stops)
  | outOfBudget => exact absurd rfl stuck.unlimited

/-- A stuck simulator stays as it is, except that a run is counted. -/
theorem Stuck.answer?_of_drives (stuck : Stuck runEnd simulator)
    (drives : call.drives = true) :
    ∃ machine, simulator.machine.SameButRuns machine ∧
      simulator.answer? call = some
        ⟨if call.executes then simulator.runResult runEnd else .ok (),
          { simulator with machine := machine }⟩ := by
  cases call with
  | run fuel =>
      refine ⟨simulator.machine.recordRun 0,
        Machine.sameButRuns_recordRun _ 0, ?_⟩
      exact stuck.run_eq (of_decide_eq_true drives)
  | step =>
      refine ⟨simulator.machine, Machine.SameButRuns.refl _, ?_⟩
      exact congrArg some stuck.step_eq
  | preProcess =>
      refine ⟨simulator.machine, Machine.SameButRuns.refl _, ?_⟩
      have assembles : assemble simulator.source =
          .ok ⟨simulator.tokens, simulator.program⟩ := stuck.upToDate
      rw [answer?, preProcess, assembles]
      rfl
  | _ => cases drives

/-- The result of a run does not depend on what the machine has counted. -/
theorem runResult_eq_of_agrees (agrees : simulator.machine.Agrees machine)
    (runEnd : RunEnd) :
    { simulator with machine := machine }.runResult runEnd =
      simulator.runResult runEnd := by
  cases runEnd with
  | outOfBudget =>
      unfold runResult currentLine
      rw [agrees.pc]
  | _ => rfl

theorem Stuck.exists_exchanges (stuck : Stuck runEnd simulator)
    (driven : ∀ call ∈ calls, call.drives = true) :
    ∃ exchanges, simulator.exchanges? calls = some exchanges ∧
      ∀ exchange ∈ exchanges,
        exchange.2.result =
          (if exchange.1.executes then simulator.runResult runEnd
            else .ok ()) ∧
        exchange.2.simulator.state = .halted ∧
        simulator.machine.SameButRuns exchange.2.simulator.machine := by
  induction calls generalizing simulator with
  | nil => exact ⟨[], rfl, by simp⟩
  | cons call rest inductionHypothesis =>
      obtain ⟨drives, others⟩ := List.forall_mem_cons.mp driven
      obtain ⟨machine, same, answers⟩ := stuck.answer?_of_drives drives
      obtain ⟨exchanges, later, alike⟩ :=
        inductionHypothesis (stuck.of_agrees same.agrees) others
      let response : Response :=
        ⟨if call.executes then simulator.runResult runEnd else .ok (),
          { simulator with machine := machine }⟩
      refine ⟨(call, response) :: exchanges, ?_,
        List.forall_mem_cons.mpr ⟨?_, ?_⟩⟩
      · rw [exchanges?, answers]
        simp only [later, Option.map_some, response]
      · exact ⟨rfl, stuck.halted, same⟩
      · intro exchange member
        obtain ⟨result, halted, sameLater⟩ := alike exchange member
        rw [runResult_eq_of_agrees same.agrees] at result
        exact ⟨result, halted, same.trans sameLater⟩

/-! ## Halted simulators -/

theorem stuck_of_past (halted : simulator.state = .halted)
    (upToDate : simulator.UpToDate)
    (past : simulator.program.size ≤ simulator.machine.pc) :
    Stuck .finished simulator where
  halted := halted
  upToDate := upToDate
  stops := by
    have outside :
        simulator.program.instructions.size ≤ simulator.machine.pc := past
    simp [Machine.stopReason?, outside]
  unlimited := by simp

/-- Where the next instruction fails a driver stops at once, if it may execute
an instruction at all. -/
theorem stuck_of_failed (halted : simulator.state = .halted)
    (upToDate : simulator.UpToDate)
    (affordable : simulator.configuration.general.maxSteps? ≠ some 0)
    (inside : simulator.machine.pc < simulator.program.instructions.size)
    {stopped : Machine}
    (failed : simulator.machine.execute simulator.program.instructions =
      .error executionError stopped) :
    Stuck (.failed executionError) simulator where
  halted := halted
  upToDate := upToDate
  stops := by
    have notPast :
        ¬simulator.program.instructions.size ≤ simulator.machine.pc :=
      Nat.not_le_of_lt inside
    simp [Machine.stopReason?, notPast, affordable, failed]
  unlimited := by simp

/-- A run or a step that fails, but not for its budget, leaves a stuck
simulator. -/
theorem Coherent.stuck_of_failed (coherent : Coherent simulator)
    (answered : Answered simulator call response)
    (fails : response.result = .error (.execution executionError))
    (noLimit : ∀ limit line,
      executionError ≠ .stepLimitExceeded limit line)
    (affordable :
      response.simulator.configuration.general.maxSteps? ≠ some 0) :
    Stuck (.failed executionError) response.simulator := by
  cases answered with
  | @ran assembled _ runEnd stopped assembles ends =>
      obtain ⟨count, first⟩ := Machine.firstStop_of_run ends
      obtain ⟨_, _, reason⟩ := first.iterate_eq
      cases runEnd with
      | finished => cases fails
      | paused => cases fails
      | outOfBudget =>
          cases fails
          exact absurd rfl (noLimit _ _)
      | failed stoppedBy =>
          cases fails
          obtain ⟨inside, left, failed⟩ :=
            Machine.failed_of_stopReason? reason
          have counted := Machine.sameButRuns_recordRun stopped 0
          exact Simulator.stuck_of_failed rfl (upToDate_install assembles)
            affordable inside (counted.agrees.execute_eq_error failed)
  | @faulted ready _ prepared inside failed =>
      cases fails
      have upToDate := coherent.upToDate_of_ready prepared
      have halted : (ready.withState .halted).UpToDate := upToDate
      exact Simulator.stuck_of_failed rfl halted affordable inside failed
  | notInstalled refused | notRun refused | notStepped _ refused =>
      exact absurd fails (simulatorError_ne_execution _ _)
  | _ => cases fails

/-- A call that executes nothing and does not reset leaves a stuck simulator
stuck. -/
theorem Stuck.answered_of_rests (stuck : Stuck runEnd simulator)
    (answered : Answered simulator call response)
    (rests : call.executes = false)
    (halted : response.simulator.state = .halted) :
    Stuck runEnd response.simulator := by
  have assembles : assemble simulator.source =
      .ok ⟨simulator.tokens, simulator.program⟩ := stuck.upToDate
  cases answered with
  | sourceSet source => cases halted
  | fileLoaded found => cases halted
  | reset => cases halted
  | fileMissing missing => exact stuck
  | installed reassembles =>
      rw [assembles] at reassembles
      cases reassembles
      exact stuck
  | notInstalled refused => exact stuck
  | logCleared =>
      have agrees : simulator.machine.Agrees simulator.machine.clearLog :=
        ⟨rfl, rfl, rfl⟩
      exact stuck.of_agrees agrees
  | _ => cases rests

theorem Ready.configuration_eq {ready : Simulator}
    (prepared : Ready simulator ready) :
    ready.configuration = simulator.configuration := by
  rw [prepared.frame]

theorem Answered.configuration_eq
    (answered : Answered simulator call response) :
    response.simulator.configuration = simulator.configuration := by
  cases answered with
  | pastEnd prepared _ | faulted prepared _ _ | stepped prepared _ _ =>
      exact prepared.configuration_eq
  | _ => rfl

theorem HaltedBy.stuck (haltedBy : HaltedBy configuration executionError
      simulator)
    (noLimit : ∀ limit line,
      executionError ≠ .stepLimitExceeded limit line)
    (affordable : simulator.configuration.general.maxSteps? ≠ some 0) :
    Stuck (.failed executionError) simulator := by
  induction haltedBy with
  | failed before answers fails =>
      exact before.coherent.stuck_of_failed (answered_of_answer? answers)
        fails noLimit affordable
  | kept before answers rests halted inductionHypothesis =>
      have answered := answered_of_answer? answers
      rw [answered.configuration_eq] at affordable
      exact (inductionHypothesis affordable).answered_of_rests answered rests
        halted

/-- **Halted simulators.**  A simulator that has halted past the end of its
program answers every further call of `run`, `step` and `preProcess` with
success.  One that has halted because of a fault answers every further `run`
and `step` with the same fault, unless its budget is zero.  Either stays halted,
and nothing of its machine changes but the count of its runs. -/
theorem halted_stays_halted (configuration : Configuration)
    (simulator : Simulator) (calls : List Call)
    (reachable : Reachable configuration simulator)
    (halted : simulator.state = .halted)
    (driven : ∀ call ∈ calls, call.drives = true) :
    (simulator.program.size ≤ simulator.machine.pc →
      ∃ exchanges, simulator.exchanges? calls = some exchanges ∧
        ∀ exchange ∈ exchanges,
          exchange.2.result = .ok () ∧
          exchange.2.simulator.state = .halted ∧
          simulator.machine.SameButRuns exchange.2.simulator.machine) ∧
    (∀ executionError,
      HaltedBy configuration executionError simulator →
      (∀ limit line, executionError ≠ .stepLimitExceeded limit line) →
      simulator.configuration.general.maxSteps? ≠ some 0 →
      ∃ exchanges, simulator.exchanges? calls = some exchanges ∧
        ∀ exchange ∈ exchanges,
          exchange.2.result =
            (if exchange.1.executes then .error (.execution executionError)
              else .ok ()) ∧
          exchange.2.simulator.state = .halted ∧
          simulator.machine.SameButRuns exchange.2.simulator.machine) := by
  constructor
  · intro past
    have upToDate : simulator.UpToDate := by
      apply reachable.coherent.started
      rw [halted]
      decide
    obtain ⟨exchanges, answered, alike⟩ :=
      (stuck_of_past halted upToDate past).exists_exchanges driven
    refine ⟨exchanges, answered, ?_⟩
    intro exchange member
    obtain ⟨result, stays, same⟩ := alike exchange member
    refine ⟨?_, stays, same⟩
    rw [result]
    exact ite_self _
  · intro executionError haltedBy noLimit affordable
    exact (haltedBy.stuck noLimit affordable).exists_exchanges driven

/-- A step after a program has ended, and one after a division by zero. -/
theorem halted_stays_halted_step :
    let configuration :=
      { Configuration.standard with memory := ⟨8, none⟩ }
    (∃ ended exchanges,
      (new "nop" configuration).after? [.run 2] = some ended ∧
      ended.exchanges? [.step] = some exchanges ∧
      ∀ exchange ∈ exchanges, exchange.2.result = .ok ()) ∧
    ∃ failed exchanges,
      (new "div $t0, $t0, $t0" configuration).after? [.run 1] = some failed ∧
      failed.exchanges? [.preProcess, .step] = some exchanges ∧
      ∀ exchange ∈ exchanges, exchange.1.executes = true →
        exchange.2.result = .error (.execution (.fault 1 .divisionByZero)) := by
  intro configuration
  constructor
  · have states : ((new "nop" configuration).after? [.run 2]).map
        (fun ended => (ended.state, ended.program.size, ended.machine.pc)) =
          some (.halted, 1, 1) := by
      decide +kernel
    obtain ⟨ended, history, same⟩ := Option.map_eq_some_iff.mp states
    obtain ⟨halted, size, pc⟩ : ended.state = .halted ∧
        ended.program.size = 1 ∧ ended.machine.pc = 1 := by
      simpa using same
    obtain ⟨exchanges, answered, alike⟩ :=
      (halted_stays_halted configuration ended [.step]
        ((Reachable.new "nop").after? history) halted (by simp [Call.drives])).1
        (Nat.le_of_eq (size.trans pc.symm))
    exact ⟨ended, exchanges, history, answered,
      fun exchange member => (alike exchange member).1⟩
  · have results : ((new "div $t0, $t0, $t0" configuration).answer?
        (.run 1)).map (fun response => (response.result,
          response.simulator.state,
          response.simulator.configuration.general.maxSteps?)) =
            some (.error (.execution (.fault 1 .divisionByZero)), .halted,
              none) := by
      decide +kernel
    obtain ⟨response, answers, same⟩ := Option.map_eq_some_iff.mp results
    obtain ⟨fails, halted, unlimited⟩ : response.result =
          .error (.execution (.fault 1 .divisionByZero)) ∧
        response.simulator.state = .halted ∧
        response.simulator.configuration.general.maxSteps? = none := by
      simpa using same
    have start : Reachable configuration
        (new "div $t0, $t0, $t0" configuration) := .new _
    obtain ⟨exchanges, answered, alike⟩ :=
      (halted_stays_halted configuration response.simulator
        [.preProcess, .step] (start.answered answers) halted
        (by simp [Call.drives])).2 _ (.failed start answers fails) (by simp)
        (by simp [unlimited])
    refine ⟨response.simulator, exchanges, ?_, answered, ?_⟩
    · rw [Simulator.after?, answers]
      rfl
    · intro exchange member executes
      rw [(alike exchange member).1, if_pos executes]

end Simulator

end MiniMips
