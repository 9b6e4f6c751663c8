import MiniMips.Proofs.Simulator.Answers

/-!
Contract: what always holds of a simulator between two calls.

Owns:
- coherence: the installed program is the one of the current source wherever
  it can be executed.  It is kept by calls and by direct access to the machine;
- consistency: coherence, and a machine that fits the state of execution.  It
  is kept by calls alone.

A simulator that is not idle has a source that assembles.  This is why an
assembly error, which makes a simulator idle, is only met where it was idle
before, and an idle simulator has a machine in its reset state.
-/

namespace MiniMips

theorem ExecutionState.ne_idle_of_isRunning {state : ExecutionState}
    (running : state.isRunning = true) : state ≠ .idle := by
  rintro rfl
  contradiction

namespace Simulator

/-- What is installed is what the current source is assembled to. -/
def UpToDate (simulator : Simulator) : Prop :=
  assemble simulator.source = .ok ⟨simulator.tokens, simulator.program⟩

/-- The installed program fits the source and the state of execution. -/
structure Coherent (simulator : Simulator) : Prop where
  installed : (simulator.tokens = [] ∧ simulator.program = Program.empty) ∨
    simulator.UpToDate
  resting : simulator.state ≠ .running
  started : simulator.state ≠ .idle → simulator.UpToDate

/-- A coherent simulator whose machine fits the state of execution. -/
structure Consistent (configuration : Configuration) (simulator : Simulator) :
    Prop extends Coherent simulator where
  configured : simulator.configuration = configuration
  pristine : simulator.state = .idle →
    simulator.machine = Machine.fresh configuration
  sized : simulator.machine.memory.size = configuration.memory.sizeBytes

variable {configuration : Configuration} {simulator ready : Simulator}
  {assembled : Assembled} {assemblyError : AssemblyError} {call : Call}
  {response : Response}

/-! ## Coherence -/

theorem upToDate_install
    (assembles : assemble simulator.source = .ok assembled) :
    (simulator.install assembled).UpToDate :=
  assembles

theorem UpToDate.coherent (upToDate : simulator.UpToDate)
    (resting : simulator.state ≠ .running) : Coherent simulator where
  installed := .inr upToDate
  resting := resting
  started := fun _ => upToDate

theorem coherent_reset (simulator : Simulator) : Coherent simulator.reset where
  installed := .inl ⟨rfl, rfl⟩
  resting := by
    show ExecutionState.idle ≠ .running
    decide
  started := fun notIdle => absurd rfl notIdle

/-- The program of a simulator that executes an instruction is never that of
an earlier source. -/
theorem Coherent.upToDate_of_ready (coherent : Coherent simulator)
    (prepared : Ready simulator ready) : ready.UpToDate := by
  cases prepared with
  | underWay running =>
      exact coherent.started (ExecutionState.ne_idle_of_isRunning running)
  | assembled _ assembles => exact upToDate_install assembles

theorem Coherent.idle_of_refused (coherent : Coherent simulator)
    (refused : assemble simulator.source = .error assemblyError) :
    simulator.state = .idle := by
  by_cases idle : simulator.state = .idle
  · exact idle
  · have upToDate := coherent.started idle
    unfold UpToDate at upToDate
    rw [refused] at upToDate
    contradiction

theorem Coherent.withState_idle_of_refused (coherent : Coherent simulator)
    (refused : assemble simulator.source = .error assemblyError) :
    simulator.withState .idle = simulator := by
  unfold withState
  rw [← coherent.idle_of_refused refused]

theorem stateAfterRun_eq_or (runEnd : RunEnd) :
    stateAfterRun runEnd = .paused ∨ stateAfterRun runEnd = .halted := by
  cases runEnd with
  | paused => exact .inl rfl
  | finished => exact .inr rfl
  | failed _ => exact .inr rfl
  | outOfBudget => exact .inr rfl

/-- Executing the current program leaves a simulator coherent, wherever the
machine has come to. -/
theorem UpToDate.coherent_executed (upToDate : simulator.UpToDate)
    (machine : Machine) {state : ExecutionState}
    (ended : state = .paused ∨ state = .halted) :
    Coherent { simulator with machine := machine, state := state } := by
  refine ⟨.inr upToDate, ?_, fun _ => upToDate⟩
  show state ≠ .running
  rcases ended with rfl | rfl <;> decide

theorem Coherent.answered (coherent : Coherent simulator)
    (answered : Answered simulator call response) :
    Coherent response.simulator := by
  cases answered with
  | sourceSet source =>
      exact coherent_reset { simulator with source := source }
  | @fileLoaded _ path text found =>
      exact coherent_reset
        { simulator with fileName? := some path, source := text }
  | fileMissing missing => exact coherent
  | reset => exact coherent_reset simulator
  | installed assembles =>
      exact (upToDate_install assembles).coherent coherent.resting
  | notInstalled refused => exact coherent
  | ran assembles ends =>
      exact (upToDate_install assembles).coherent_executed _
        (stateAfterRun_eq_or _)
  | notRun refused =>
      -- A source that has been executed assembles, so nothing has been.
      rw [coherent.withState_idle_of_refused refused]
      exact coherent
  | @pastEnd ready prepared past =>
      exact (coherent.upToDate_of_ready prepared).coherent_executed
        ready.machine (.inr rfl)
  | @faulted ready _ prepared inside faults =>
      exact (coherent.upToDate_of_ready prepared).coherent_executed
        ready.machine (.inr rfl)
  | @stepped ready _ next prepared inside executed =>
      exact (coherent.upToDate_of_ready prepared).coherent_executed
        next (.inl rfl)
  | notStepped resting refused =>
      rw [coherent.withState_idle_of_refused refused]
      exact coherent
  | logCleared =>
      exact ⟨coherent.installed, coherent.resting, coherent.started⟩

theorem Reachable.coherent (reachable : Reachable configuration simulator) :
    Coherent simulator := by
  induction reachable with
  | new source => exact coherent_reset (Simulator.new source configuration)
  | answered before answers inductionHypothesis =>
      exact inductionHypothesis.answered (answered_of_answer? answers)
  | accessed before change inductionHypothesis =>
      exact ⟨inductionHypothesis.installed, inductionHypothesis.resting,
        inductionHypothesis.started⟩

/-! ## Consistency -/

theorem consistent_reset (simulator : Simulator)
    (configured : simulator.configuration = configuration) :
    Consistent configuration simulator.reset where
  toCoherent := coherent_reset simulator
  configured := configured
  pristine := fun _ => congrArg Machine.fresh configured
  sized := by
    rw [← configured]
    exact Memory.size_zeroed simulator.configuration.memory.sizeBytes

/-- Executing the current program leaves a simulator consistent, if the memory
keeps its size. -/
theorem UpToDate.consistent_executed (upToDate : simulator.UpToDate)
    (configured : simulator.configuration = configuration)
    {machine : Machine} {state : ExecutionState}
    (ended : state = .paused ∨ state = .halted)
    (sized : machine.memory.size = configuration.memory.sizeBytes) :
    Consistent configuration
      { simulator with machine := machine, state := state } where
  toCoherent := upToDate.coherent_executed machine ended
  configured := configured
  pristine := by
    intro idle
    rcases ended with rfl | rfl <;> contradiction
  sized := sized

theorem Consistent.executed_of_ready
    (consistent : Consistent configuration simulator)
    (prepared : Ready simulator ready)
    {machine : Machine} {state : ExecutionState}
    (ended : state = .paused ∨ state = .halted)
    (sameSize : machine.memory.size = ready.machine.memory.size) :
    Consistent configuration
      { ready with machine := machine, state := state } := by
  have configured : ready.configuration = configuration := by
    rw [prepared.frame]
    exact consistent.configured
  have sized : ready.machine.memory.size = configuration.memory.sizeBytes := by
    rw [prepared.frame]
    exact consistent.sized
  exact (consistent.upToDate_of_ready prepared).consistent_executed configured
    ended (sameSize.trans sized)

theorem Consistent.answered (consistent : Consistent configuration simulator)
    (answered : Answered simulator call response) :
    Consistent configuration response.simulator := by
  have coherent := consistent.toCoherent
  have configured := consistent.configured
  cases answered with
  | sourceSet source =>
      exact consistent_reset { simulator with source := source } configured
  | @fileLoaded _ path text found =>
      exact consistent_reset
        { simulator with fileName? := some path, source := text } configured
  | fileMissing missing => exact consistent
  | reset => exact consistent_reset simulator configured
  | installed assembles =>
      exact ⟨coherent.answered (.installed assembles), configured,
        consistent.pristine, consistent.sized⟩
  | notInstalled refused => exact consistent
  | @ran _ _ runEnd stopped assembles ends =>
      have sized : (stopped.recordRun 0).memory.size =
          configuration.memory.sizeBytes :=
        (Machine.memory_size_of_run ends).trans consistent.sized
      exact (upToDate_install assembles).consistent_executed configured
        (stateAfterRun_eq_or runEnd) sized
  | notRun refused =>
      rw [coherent.withState_idle_of_refused refused]
      exact consistent
  | pastEnd prepared past =>
      exact consistent.executed_of_ready prepared (.inr rfl) rfl
  | faulted prepared inside faults =>
      exact consistent.executed_of_ready prepared (.inr rfl) rfl
  | stepped prepared inside executed =>
      exact consistent.executed_of_ready prepared (.inl rfl)
        (Machine.execute_memory_size executed)
  | notStepped resting refused =>
      rw [coherent.withState_idle_of_refused refused]
      exact consistent
  | logCleared =>
      refine ⟨coherent.answered .logCleared, configured, ?_, consistent.sized⟩
      intro idle
      exact congrArg Machine.clearLog (consistent.pristine idle)

theorem consistent_of_after? {source : String} {calls : List Call}
    (history : (new source configuration).after? calls = some simulator) :
    Consistent configuration simulator := by
  apply after?_induction (motive := fun _ reached =>
    Consistent configuration reached) _ _ history
  · exact consistent_reset (new source configuration) rfl
  · intro past before call response consistent answered
    exact consistent.answered answered

theorem Coherent.state_eq_or (coherent : Coherent simulator) :
    simulator.state = .idle ∨ simulator.state = .paused ∨
      simulator.state = .halted := by
  have resting := coherent.resting
  cases state : simulator.state with
  | idle => exact .inl rfl
  | running => exact absurd state resting
  | paused => exact .inr (.inl rfl)
  | halted => exact .inr (.inr rfl)

/-- **Consistency.**  Whatever has been called on a new simulator, with or
without success, its program, its state of execution and its machine fit its
source and its configuration. -/
theorem consistent_after_calls (configuration : Configuration)
    (source : String) (calls : List Call) (simulator : Simulator)
    (history : (new source configuration).after? calls = some simulator) :
    ((simulator.tokens = [] ∧ simulator.program = Program.empty) ∨
      assemble simulator.source =
        .ok ⟨simulator.tokens, simulator.program⟩) ∧
    ((simulator.state = .idle ∨ simulator.state = .paused ∨
        simulator.state = .halted) ∧
      simulator.isRunning = simulator.isPaused) ∧
    (simulator.state = .idle →
      simulator.machine = Machine.fresh configuration) ∧
    (simulator.state = .paused ∨ simulator.state = .halted →
      assemble simulator.source =
        .ok ⟨simulator.tokens, simulator.program⟩) ∧
    simulator.machine.memory.size = configuration.memory.sizeBytes := by
  have consistent := consistent_of_after? history
  have states := consistent.state_eq_or
  refine ⟨consistent.installed, ⟨states, ?_⟩, consistent.pristine, ?_,
    consistent.sized⟩
  · unfold isRunning isPaused
    rcases states with state | state | state <;> rw [state] <;> rfl
  · intro executed
    apply consistent.started
    rcases executed with state | state <;> rw [state] <;> decide

/-- A step and a run up to a breakpoint leave a paused simulator. -/
theorem consistent_after_calls_paused :
    ∃ simulator,
      (new "nop\nbreak\n" { Configuration.standard with
        memory := ⟨8, none⟩ }).after? [.step, .run 2] = some simulator ∧
      simulator.state = .paused ∧
      assemble simulator.source =
        .ok ⟨simulator.tokens, simulator.program⟩ ∧
      simulator.machine.memory.size = 8 := by
  have states : ((new "nop\nbreak\n" { Configuration.standard with
      memory := ⟨8, none⟩ }).after? [.step, .run 2]).map (·.state) =
        some .paused := by
    decide +kernel
  obtain ⟨simulator, history, paused⟩ := Option.map_eq_some_iff.mp states
  obtain ⟨_, _, _, assembles, sized⟩ :=
    consistent_after_calls _ _ _ simulator history
  exact ⟨simulator, history, paused, assembles (.inl paused), sized⟩

end Simulator

end MiniMips
