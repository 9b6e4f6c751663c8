import MiniMips.Proofs.Machine.Iteration
import MiniMips.Simulator.History

/-!
Contract: everything that a call can do to a simulator.

Owns:
- the ways in which each call is answered, with the simulator after each, and
  that every answer is one of them;
- the induction along a history that follows.

Facts about histories follow from these cases, and no other module takes an
operation apart.
-/

namespace MiniMips.Simulator

/-- A simulator that a step executes an instruction of: as it is if execution
is under way, and otherwise with its source assembled. -/
inductive Ready (simulator : Simulator) : Simulator → Prop where
  | underWay (running : simulator.state.isRunning = true) :
      Ready simulator simulator
  | assembled {assembled : Assembled}
      (resting : simulator.state.isRunning = false)
      (assembles : assemble simulator.source = .ok assembled) :
      Ready simulator (simulator.install assembled)

/-- The ways in which a call is answered. -/
inductive Answered (simulator : Simulator) : Call → Response → Prop where
  | sourceSet (source : String) :
      Answered simulator (.setSource source)
        ⟨.ok (), simulator.setSource source⟩
  | fileLoaded {files : FileReader} {path text : String}
      (found : files path = some text) :
      Answered simulator (.loadFile files path)
        ⟨.ok (), { simulator.setSource text with fileName? := some path }⟩
  | fileMissing {files : FileReader} {path : String}
      (missing : files path = none) :
      Answered simulator (.loadFile files path)
        ⟨.error (.unreadable path), simulator⟩
  | reset : Answered simulator .reset ⟨.ok (), simulator.reset⟩
  | installed {assembled : Assembled}
      (assembles : assemble simulator.source = .ok assembled) :
      Answered simulator .preProcess ⟨.ok (), simulator.install assembled⟩
  | notInstalled {assemblyError : AssemblyError}
      (refused : assemble simulator.source = .error assemblyError) :
      Answered simulator .preProcess
        ⟨.error assemblyError.simulatorError, simulator⟩
  | ran {assembled : Assembled} {fuel : Nat} {runEnd : RunEnd}
      {stopped : Machine}
      (assembles : assemble simulator.source = .ok assembled)
      (ends : simulator.machine.run assembled.program.instructions fuel
        simulator.configuration.general.maxSteps? = some (runEnd, stopped)) :
      Answered simulator (.run fuel)
        ({ simulator.install assembled with machine := stopped }.finishRun
          runEnd)
  | notRun {assemblyError : AssemblyError} {fuel : Nat}
      (refused : assemble simulator.source = .error assemblyError) :
      Answered simulator (.run fuel)
        ⟨.error assemblyError.simulatorError, simulator.withState .idle⟩
  | pastEnd {ready : Simulator} (prepared : Ready simulator ready)
      (past : ready.program.size ≤ ready.machine.pc) :
      Answered simulator .step ⟨.ok (), ready.withState .halted⟩
  | faulted {ready : Simulator} {executionError : ExecutionError}
      (prepared : Ready simulator ready)
      (inside : ready.machine.pc < ready.program.size)
      (faults : ready.machine.execute ready.program.instructions =
        .error executionError ready.machine) :
      Answered simulator .step
        ⟨.error (.execution executionError), ready.withState .halted⟩
  | stepped {ready : Simulator} {outcome : Outcome} {next : Machine}
      (prepared : Ready simulator ready)
      (inside : ready.machine.pc < ready.program.size)
      (executed : ready.machine.execute ready.program.instructions =
        .ok outcome next) :
      Answered simulator .step
        ⟨.ok (), { ready with machine := next, state := .paused }⟩
  | notStepped {assemblyError : AssemblyError}
      (resting : simulator.state.isRunning = false)
      (refused : assemble simulator.source = .error assemblyError) :
      Answered simulator .step
        ⟨.error assemblyError.simulatorError, simulator.withState .idle⟩
  | logCleared : Answered simulator .clearLog ⟨.ok (), simulator.clearLog⟩

variable {simulator : Simulator}

/-- Making a simulator ready touches nothing but its program. -/
theorem Ready.frame {ready : Simulator} (prepared : Ready simulator ready) :
    ready = { simulator with
      tokens := ready.tokens
      program := ready.program } := by
  cases prepared with
  | underWay running => rfl
  | assembled resting assembles => rfl

theorem simulatorError_ne_execution (assemblyError : AssemblyError)
    (executionError : ExecutionError) :
    (.error assemblyError.simulatorError : Except SimulatorError Unit) ≠
      .error (.execution executionError) := by
  cases assemblyError <;> simp [AssemblyError.simulatorError]

theorem run_of_refused {assemblyError : AssemblyError}
    (refused : assemble simulator.source = .error assemblyError)
    (fuel : Nat) :
    simulator.run fuel =
      some ⟨.error assemblyError.simulatorError,
        simulator.withState .idle⟩ := by
  unfold run preProcess
  rw [refused]

theorem run_of_assembles {assembled : Assembled}
    (assembles : assemble simulator.source = .ok assembled) (fuel : Nat) :
    simulator.run fuel =
      (simulator.machine.run assembled.program.instructions fuel
        simulator.configuration.general.maxSteps?).map (fun ended =>
          { simulator.install assembled with
            machine := ended.2 }.finishRun ended.1) := by
  unfold run preProcess
  rw [assembles]
  dsimp only [runInstalled, withState, install]
  cases simulator.machine.run assembled.program.instructions fuel
      simulator.configuration.general.maxSteps? with
  | none => rfl
  | some ended => rfl

theorem answered_advance {ready : Simulator}
    (prepared : Ready simulator ready) :
    Answered simulator .step ready.advance := by
  unfold advance
  by_cases past : ready.program.size ≤ ready.machine.pc
  · rw [if_pos past]
    exact .pastEnd prepared past
  · rw [if_neg past]
    have inside : ready.machine.pc < ready.program.size :=
      Nat.lt_of_not_le past
    cases executed : ready.machine.execute ready.program.instructions with
    | error executionError stopped =>
        obtain ⟨_, unchanged⟩ := Machine.execute_eq_error_iff.mp executed
        subst unchanged
        exact .faulted prepared inside executed
    | ok outcome next => exact .stepped prepared inside executed

theorem answered_step (simulator : Simulator) :
    Answered simulator .step simulator.step := by
  unfold step
  cases running : simulator.state.isRunning with
  | true => exact answered_advance (.underWay running)
  | false =>
      unfold preProcess
      cases assembles : assemble simulator.source with
      | error assemblyError => exact .notStepped running assembles
      | ok assembled => exact answered_advance (.assembled running assembles)

theorem answered_run {fuel : Nat} {response : Response}
    (ran : simulator.run fuel = some response) :
    Answered simulator (.run fuel) response := by
  cases assembles : assemble simulator.source with
  | error assemblyError =>
      rw [run_of_refused assembles] at ran
      cases ran
      exact .notRun assembles
  | ok assembled =>
      rw [run_of_assembles assembles] at ran
      obtain ⟨ended, ends, rfl⟩ := Option.map_eq_some_iff.mp ran
      exact .ran assembles ends

theorem answered_of_answer? {call : Call} {response : Response}
    (answers : simulator.answer? call = some response) :
    Answered simulator call response := by
  cases call with
  | setSource source =>
      cases answers
      exact .sourceSet source
  | loadFile files path =>
      cases answers
      unfold loadFile FileReader.load
      cases found : files path with
      | none => exact .fileMissing found
      | some text => exact .fileLoaded found
  | reset =>
      cases answers
      exact .reset
  | preProcess =>
      cases answers
      unfold preProcess
      cases assembles : assemble simulator.source with
      | error assemblyError => exact .notInstalled assembles
      | ok assembled => exact .installed assembles
  | run fuel => exact answered_run answers
  | step =>
      cases answers
      exact answered_step simulator
  | clearLog =>
      cases answers
      exact .logCleared

theorem after?_cons_eq_some {call : Call} {rest : List Call}
    {after : Simulator}
    (history : simulator.after? (call :: rest) = some after) :
    ∃ response, Answered simulator call response ∧
      response.simulator.after? rest = some after := by
  rw [after?] at history
  cases answers : simulator.answer? call with
  | none =>
      rw [answers] at history
      contradiction
  | some response =>
      rw [answers] at history
      exact ⟨response, answered_of_answer? answers, history⟩

theorem exchanges?_cons_eq_some {call : Call} {rest : List Call}
    {exchanges : List (Call × Response)}
    (answered : simulator.exchanges? (call :: rest) = some exchanges) :
    ∃ response others, simulator.answer? call = some response ∧
      exchanges = (call, response) :: others ∧
      response.simulator.exchanges? rest = some others := by
  rw [exchanges?] at answered
  cases answers : simulator.answer? call with
  | none =>
      rw [answers] at answered
      contradiction
  | some response =>
      rw [answers] at answered
      obtain ⟨others, later, rfl⟩ := Option.map_eq_some_iff.mp answered
      exact ⟨response, others, rfl, rfl, later⟩

/-- What holds before the first call and is kept by every answer holds after a
history, of the calls so far and the simulator. -/
theorem after?_induction {motive : List Call → Simulator → Prop}
    (holds : motive [] simulator)
    (kept : ∀ past before call response, motive past before →
      Answered before call response →
      motive (past ++ [call]) response.simulator)
    {calls : List Call} {after : Simulator}
    (history : simulator.after? calls = some after) :
    motive calls after := by
  -- The calls before those of the list are carried along.
  suffices fromPast : ∀ past, motive past simulator →
      motive (past ++ calls) after by
    simpa using fromPast [] holds
  clear holds
  induction calls generalizing simulator with
  | nil =>
      intro past holds
      cases history
      rw [List.append_nil]
      exact holds
  | cons call rest inductionHypothesis =>
      intro past holds
      obtain ⟨response, answered, later⟩ := after?_cons_eq_some history
      have reached := inductionHypothesis later (past ++ [call])
        (kept past simulator call response holds answered)
      rw [List.append_assoc, List.singleton_append] at reached
      exact reached

end MiniMips.Simulator
