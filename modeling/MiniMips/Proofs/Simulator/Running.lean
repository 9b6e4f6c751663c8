import Mathlib.Control.Monad.Basic
import MiniMips.Proofs.Simulator.Consistency

/-!
Contract: a run of a simulator is its steps, one after the other.

Owns:
- what a run returns, told by the first stop of the machine;
- runs that are repeated, which come to one end if they come to any;
- that successive steps take the machine along its iteration;
- the agreement of the two, for every simulator that can be reached.

A run assembles the source once and then drives the machine by itself.  A step
assembles the source unless execution is under way, and executes the installed
program.  Both drive the machine through the same program because a simulator
that is under way is up to date.
-/

namespace MiniMips.Simulator

/-- A run returns a response, whatever it takes. -/
def Returns (simulator : Simulator) (response : Response) : Prop :=
  ∃ fuel, simulator.run fuel = some response

/-- Runs are repeated as long as a response asks for it.  The list holds the
simulators that were run again afterwards, each with its response; the response
of the last run stands apart. -/
inductive RunsWhile (again : Response → Prop) :
    Simulator → List (Simulator × Response) → Response → Prop where
  | last {simulator : Simulator} {response : Response}
      (returns : simulator.Returns response) (stops : ¬again response) :
      RunsWhile again simulator [] response
  | more {simulator : Simulator} {response final : Response}
      {calls : List (Simulator × Response)}
      (returns : simulator.Returns response) (continues : again response)
      (others : RunsWhile again response.simulator calls final) :
      RunsWhile again simulator ((simulator, response) :: calls) final

/-- The simulator after `count` steps, all of which succeed. -/
def steps : (count : Nat) → Simulator → Option Simulator
  | 0, simulator => some simulator
  | count + 1, simulator =>
      match simulator.steps count with
      | none => none
      | some reached =>
          match reached.step with
          | ⟨.ok (), next⟩ => some next
          | ⟨.error _, _⟩ => none

/-- The result of a run and the state of execution after it, where the machine
stops after `count` instructions of the run. -/
inductive Landing (program : Program) (count : Nat) (stopped : Machine) :
    RunEnd → Except SimulatorError Unit → ExecutionState → Prop where
  | paused : Landing program count stopped .paused (.ok ()) .paused
  | finished : Landing program count stopped .finished (.ok ()) .halted
  | outOfBudget {instruction : Instruction}
      (next : program.instructions[stopped.pc]? = some instruction) :
      Landing program count stopped .outOfBudget
        (.error (.execution (.stepLimitExceeded count instruction.line)))
        .halted
  | failed (executionError : ExecutionError) :
      Landing program count stopped (.failed executionError)
        (.error (.execution executionError)) .halted

variable {configuration : Configuration} {simulator : Simulator}
  {assembled : Assembled} {response : Response} {count : Nat}
  {runEnd : RunEnd} {stopped : Machine}

/-! ## Runs -/

theorem returns_iff (assembles : assemble simulator.source = .ok assembled) :
    simulator.Returns response ↔
      ∃ count runEnd stopped,
        Machine.FirstStop assembled.program.instructions
          simulator.configuration.general.maxSteps? simulator.machine count
          runEnd stopped ∧
        response = { simulator.install assembled with
          machine := stopped }.finishRun runEnd := by
  unfold Returns
  constructor
  · rintro ⟨fuel, returned⟩
    rw [run_of_assembles assembles] at returned
    obtain ⟨⟨runEnd, stopped⟩, ran, rfl⟩ := Option.map_eq_some_iff.mp returned
    obtain ⟨count, first⟩ := Machine.firstStop_of_run ran
    exact ⟨count, runEnd, stopped, first, rfl⟩
  · rintro ⟨count, runEnd, stopped, first, rfl⟩
    refine ⟨count + 1, ?_⟩
    rw [run_of_assembles assembles,
      Machine.run_of_firstStop first (Nat.lt_succ_self count)]
    rfl

theorem landing_finishRun (simulator : Simulator) {outcome : Outcome}
    (reason : stopped.stopReason? simulator.program.instructions
      simulator.configuration.general.maxSteps? count outcome = some runEnd) :
    Landing simulator.program count stopped runEnd
      ({ simulator with machine := stopped }.finishRun runEnd).result
      (stateAfterRun runEnd) := by
  cases runEnd with
  | paused => exact .paused
  | finished => exact .finished
  | failed executionError => exact .failed executionError
  | outOfBudget =>
      obtain ⟨budget, inside⟩ := Machine.budget_of_stopReason? reason
      have next := Array.getElem?_eq_getElem inside
      have result : ({ simulator with
          machine := stopped }.finishRun .outOfBudget).result =
            .error (.execution (.stepLimitExceeded count
              simulator.program.instructions[stopped.pc].line)) := by
        simp only [finishRun, runResult, currentLine, Machine.recordRun,
          budget, Option.getD_some, next]
      rw [result]
      exact .outOfBudget next

theorem returns_iff_of_firstStop
    (assembles : assemble simulator.source = .ok assembled)
    (first : Machine.FirstStop assembled.program.instructions
      simulator.configuration.general.maxSteps? simulator.machine count runEnd
      stopped) :
    simulator.Returns response ↔
      response = { simulator.install assembled with
        machine := stopped }.finishRun runEnd := by
  rw [returns_iff assembles]
  constructor
  · rintro ⟨otherCount, otherEnd, otherStopped, other, rfl⟩
    obtain ⟨_, rfl, rfl⟩ := first.unique other
    rfl
  · rintro rfl
    exact ⟨count, runEnd, stopped, first, rfl⟩

/-- A run returns one response, whatever it takes. -/
theorem Returns.unique {other : Response}
    (returns : simulator.Returns response)
    (otherwise : simulator.Returns other) : response = other := by
  cases assembles : assemble simulator.source with
  | error assemblyError =>
      obtain ⟨fuel, returned⟩ := returns
      obtain ⟨otherFuel, returnedOther⟩ := otherwise
      rw [run_of_refused assembles] at returned returnedOther
      exact Option.some.inj (returned.symm.trans returnedOther)
  | ok assembled =>
      obtain ⟨count, runEnd, stopped, first, rfl⟩ :=
        (returns_iff assembles).mp returns
      exact ((returns_iff_of_firstStop assembles first).mp otherwise).symm

/-- Repeated runs come to one end. -/
theorem RunsWhile.unique {again : Response → Prop}
    {calls otherCalls : List (Simulator × Response)} {final other : Response}
    (runs : RunsWhile again simulator calls final)
    (otherwise : RunsWhile again simulator otherCalls other) :
    calls = otherCalls ∧ final = other := by
  induction runs generalizing otherCalls with
  | last returns stops =>
      cases otherwise with
      | last returnsOther _ => exact ⟨rfl, returns.unique returnsOther⟩
      | more returnsOther continues _ =>
          rw [returns.unique returnsOther] at stops
          exact absurd continues stops
  | more returns continues others inductionHypothesis =>
      cases otherwise with
      | last returnsOther stops =>
          rw [returns.unique returnsOther] at continues
          exact absurd continues stops
      | more returnsOther _ othersOther =>
          cases returns.unique returnsOther
          obtain ⟨rfl, sameFinal⟩ := inductionHypothesis othersOther
          exact ⟨rfl, sameFinal⟩

theorem retired_of_firstStop
    (first : Machine.FirstStop assembled.program.instructions
      simulator.configuration.general.maxSteps? simulator.machine count runEnd
      stopped) :
    ({ simulator.install assembled with
      machine := stopped }.finishRun runEnd).simulator.machine.statistics.retired
        = simulator.machine.statistics.retired + count := by
  obtain ⟨outcome, iterates, _⟩ := first.iterate_eq
  show stopped.statistics.retired = _
  exact Machine.retired_of_iterate iterates

/-- A run with a budget returns, and stays within it. -/
theorem exists_returns_of_budget
    (assembles : assemble simulator.source = .ok assembled) {limit : Nat}
    (budget : simulator.configuration.general.maxSteps? = some limit) :
    ∃ response, simulator.Returns response ∧
      response.simulator.machine.statistics.retired ≤
        simulator.machine.statistics.retired + limit := by
  obtain ⟨count, runEnd, stopped, countLe, first⟩ :=
    Machine.exists_firstStop_of_budget limit simulator.machine
  rw [← budget] at first
  refine ⟨_, (returns_iff_of_firstStop assembles first).mpr rfl, ?_⟩
  rw [retired_of_firstStop first]
  exact Nat.add_le_add_left countLe _

/-! ## Steps -/

theorem step_eq_advance (coherent : Coherent simulator)
    (assembles : assemble simulator.source = .ok assembled) :
    simulator.step = (simulator.install assembled).advance := by
  unfold step
  cases running : simulator.state.isRunning with
  | true =>
      -- What is installed already is what assembling would install.
      have upToDate :=
        coherent.started (ExecutionState.ne_idle_of_isRunning running)
      unfold UpToDate at upToDate
      rw [assembles] at upToDate
      cases upToDate
      rfl
  | false =>
      unfold preProcess
      rw [assembles]
      rfl

theorem advance_of_executed {outcome : Outcome} {next : Machine}
    (executed : simulator.machine.execute simulator.program.instructions =
      .ok outcome next) :
    simulator.advance =
      ⟨.ok (), { simulator with machine := next, state := .paused }⟩ := by
  obtain ⟨instruction, _, present, _⟩ :=
    Machine.execute_eq_ok_iff_effect.mp executed
  have inside : simulator.machine.pc < simulator.program.size :=
    (Array.getElem?_eq_some_iff.mp present).1
  unfold advance
  rw [if_neg (Nat.not_le_of_lt inside), executed]

theorem advance_of_past
    (past : simulator.program.size ≤ simulator.machine.pc) :
    simulator.advance = ⟨.ok (), simulator.withState .halted⟩ :=
  if_pos past

theorem advance_of_failed {executionError : ExecutionError}
    (inside : simulator.machine.pc < simulator.program.size)
    (fails : simulator.machine.execute simulator.program.instructions =
      .error executionError stopped) :
    simulator.advance =
      ⟨.error (.execution executionError),
        { simulator with machine := stopped, state := .halted }⟩ := by
  unfold advance
  rw [if_neg (Nat.not_le_of_lt inside), fails]

/-- A step that executes an instruction of the current program. -/
theorem step_of_executed (coherent : Coherent simulator)
    (assembles : assemble simulator.source = .ok assembled)
    {outcome : Outcome} {next : Machine}
    (executed : simulator.machine.execute assembled.program.instructions =
      .ok outcome next) :
    simulator.step =
      ⟨.ok (), { simulator.install assembled with
        machine := next, state := .paused }⟩ :=
  (step_eq_advance coherent assembles).trans (advance_of_executed executed)

theorem steps_of_iterate (coherent : Coherent simulator)
    (assembles : assemble simulator.source = .ok assembled)
    {outcome : Outcome} {reached : Machine}
    (iterates : simulator.machine.iterate assembled.program.instructions
      count = some (outcome, reached)) :
    ∃ stepped, simulator.steps count = some stepped ∧
      stepped.machine = reached ∧ stepped.source = simulator.source ∧
      Coherent stepped := by
  induction count generalizing outcome reached with
  | zero =>
      cases iterates
      exact ⟨simulator, rfl, rfl, rfl, coherent⟩
  | succ count inductionHypothesis =>
      obtain ⟨told, before, earlier, executed⟩ :=
        Machine.iterate_succ_eq_some iterates
      obtain ⟨stepped, succeeded, rfl, sameSource, steady⟩ :=
        inductionHypothesis earlier
      have current : assemble stepped.source = .ok assembled := by
        rw [sameSource, assembles]
      have answer := step_of_executed steady current executed
      refine ⟨{ stepped.install assembled with
          machine := reached, state := .paused }, ?_, rfl, sameSource,
        (upToDate_install current).coherent_executed reached (.inl rfl)⟩
      rw [steps, succeeded]
      simp only [answer]

/-! ## Agreement -/

/-- **Agreement.**  A run of a simulator whose source assembles stops where
the iteration of its machine first has a reason to, and nowhere else.  As many
steps as the run has executed instructions take the simulator to the same
machine, and a budget bounds their number. -/
theorem run_eq_successive_steps (configuration : Configuration)
    (simulator : Simulator) (assembled : Assembled)
    (reachable : Reachable configuration simulator)
    (assembles : assemble simulator.source = .ok assembled) :
    (∀ count runEnd stopped,
      Machine.FirstStop assembled.program.instructions
        simulator.configuration.general.maxSteps? simulator.machine count
        runEnd stopped →
      (∃ result state,
        Landing assembled.program count stopped runEnd result state ∧
        ∀ response, simulator.Returns response ↔
          response = ⟨result, { simulator with
            tokens := assembled.tokens
            program := assembled.program
            machine := { stopped with
              statistics := { stopped.statistics with
                runs := stopped.statistics.runs + 1 } }
            state := state }⟩) ∧
      ∃ stepped, simulator.steps count = some stepped ∧
        stepped.machine = stopped) ∧
    ((∀ count runEnd stopped,
      ¬Machine.FirstStop assembled.program.instructions
        simulator.configuration.general.maxSteps? simulator.machine count
        runEnd stopped) →
      ∀ response, ¬simulator.Returns response) ∧
    (∀ limit, simulator.configuration.general.maxSteps? = some limit →
      ∃ response, simulator.Returns response ∧
        response.simulator.machine.statistics.retired ≤
          simulator.machine.statistics.retired + limit) := by
  refine ⟨?_, ?_, fun limit => exists_returns_of_budget assembles⟩
  · intro count runEnd stopped first
    obtain ⟨outcome, iterates, reason⟩ := first.iterate_eq
    constructor
    · exact ⟨_, _, landing_finishRun (simulator.install assembled) reason,
        fun response => returns_iff_of_firstStop assembles first⟩
    · obtain ⟨stepped, succeeded, reached, _⟩ :=
        steps_of_iterate reachable.coherent assembles iterates
      exact ⟨stepped, succeeded, reached⟩
  · intro endless response returns
    obtain ⟨count, runEnd, stopped, first, _⟩ :=
      (returns_iff assembles).mp returns
    exact endless count runEnd stopped first

/-- A breakpoint at the end of a program pauses a run, which does not look
whether the program has ended. -/
theorem run_eq_successive_steps_breakpoint :
    let simulator := new "break\n"
      { Configuration.standard with memory := ⟨8, none⟩ }
    (∃ response, simulator.Returns response ∧
      response.result = .ok () ∧
      response.simulator.state = .paused ∧
      response.simulator.machine.pc = 1 ∧
      response.simulator.machine.statistics.runs = 1) ∧
    ∃ stepped, simulator.steps 1 = some stepped ∧ stepped.machine.pc = 1 := by
  intro simulator
  let assembled : Assembled :=
    ⟨[⟨.mnemonic "break", "break", 1⟩], ⟨#[.bare .breakpoint 1], .empty⟩⟩
  have assembles : assemble simulator.source = .ok assembled := by
    decide +kernel
  have goesOn : simulator.machine.stopAfter? assembled.program.instructions
      none 0 = none := rfl
  have executed : simulator.machine.execute assembled.program.instructions =
      .ok .pause _ := rfl
  obtain ⟨returns, _⟩ := run_eq_successive_steps _ simulator assembled
    (.new "break\n") assembles
  obtain ⟨⟨_, _, landing, response⟩, stepped, succeeded, reached⟩ :=
    returns 1 .paused _ (Machine.FirstStop.one_of_pause goesOn executed)
  cases landing
  refine ⟨⟨_, (response _).mpr rfl, rfl, rfl, rfl, rfl⟩,
    stepped, succeeded, ?_⟩
  rw [reached]
  rfl

end MiniMips.Simulator
