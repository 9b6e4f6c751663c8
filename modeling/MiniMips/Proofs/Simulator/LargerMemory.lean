import MiniMips.Proofs.Machine.Extension
import MiniMips.Proofs.Simulator.Stability

/-!
Contract: simulators with a larger memory.

Owns:
- configurations that are alike but for the size of the memory;
- that a simulator with a larger memory answers every call as the other one
  does, up to an access that is out of bounds, and comes to the same machine
  with zeros added.
-/

namespace MiniMips

/-- The same settings for a larger memory.  The stack pointer is set, since it
would depend on the size otherwise.  Whether instructions are traced does not
matter. -/
structure Configuration.Enlarges (configuration larger : Configuration) :
    Prop where
  stackPointer : ∃ stackPointer,
    configuration.memory.initialStackPointer? = some stackPointer ∧
      larger.memory.initialStackPointer? = some stackPointer
  budget : configuration.general.maxSteps? = larger.general.maxSteps?
  size : configuration.memory.sizeBytes ≤ larger.memory.sizeBytes

def Configuration.addedBytes (configuration larger : Configuration) :
    ByteArray :=
  zeroBytes (larger.memory.sizeBytes - configuration.memory.sizeBytes)

/-- The simulator as it is under a configuration with a larger memory. -/
def Simulator.enlarged (larger : Configuration) (simulator : Simulator) :
    Simulator :=
  { simulator with
    configuration := larger
    machine :=
      simulator.machine.withExtra (simulator.configuration.addedBytes larger) }

def Response.enlarged (larger : Configuration) (response : Response) :
    Response where
  result := response.result
  simulator := response.simulator.enlarged larger

/-- Whether a call has failed because an instruction left the memory. -/
def Response.IsOutOfBounds (response : Response) : Prop :=
  ∃ executionError, response.result = .error (.execution executionError) ∧
    executionError.isOutOfBounds = true

variable {configuration larger : Configuration} {simulator : Simulator}
  {call : Call} {calls : List Call} {response : Response}
  {exchanges : List (Call × Response)}

theorem Response.isOutOfBounds_eq_false {executionError : ExecutionError}
    (inBounds : ¬response.IsOutOfBounds)
    (fails : response.result = .error (.execution executionError)) :
    executionError.isOutOfBounds = false := by
  by_contra outside
  exact inBounds ⟨executionError, fails, eq_true_of_ne_false outside⟩

theorem Configuration.Enlarges.fresh_eq
    (enlarges : configuration.Enlarges larger) :
    Machine.fresh larger =
      (Machine.fresh configuration).withExtra
        (configuration.addedBytes larger) := by
  obtain ⟨stackPointer, set, setAlike⟩ := enlarges.stackPointer
  have memory := Memory.zeroed_add configuration.memory.sizeBytes
    (larger.memory.sizeBytes - configuration.memory.sizeBytes)
  rw [Nat.add_sub_cancel' enlarges.size] at memory
  have stack : larger.memory.stackPointer =
      configuration.memory.stackPointer := by
    rw [MemorySettings.stackPointer, MemorySettings.stackPointer, set,
      setAlike]
    rfl
  unfold Machine.fresh Machine.withExtra addedBytes
  rw [memory, stack]

namespace Simulator

/-! ## One call -/

theorem reset_enlarged
    (enlarges : simulator.configuration.Enlarges larger) :
    (simulator.enlarged larger).reset = simulator.reset.enlarged larger := by
  unfold reset enlarged
  dsimp only
  rw [enlarges.fresh_eq]

theorem setSource_enlarged
    (enlarges : simulator.configuration.Enlarges larger) (source : String) :
    (simulator.enlarged larger).setSource source =
      (simulator.setSource source).enlarged larger :=
  @reset_enlarged larger { simulator with source := source } enlarges

theorem loadFile_enlarged
    (enlarges : simulator.configuration.Enlarges larger) (files : FileReader)
    (path : String) :
    (simulator.enlarged larger).loadFile files path =
      (simulator.loadFile files path).enlarged larger := by
  unfold loadFile
  cases files.load path with
  | error simulatorError => rfl
  | ok text =>
      dsimp only
      rw [setSource_enlarged enlarges]
      rfl

theorem runResult_enlarged
    (enlarges : simulator.configuration.Enlarges larger) (runEnd : RunEnd) :
    (simulator.enlarged larger).runResult runEnd =
      simulator.runResult runEnd := by
  cases runEnd with
  | outOfBudget =>
      unfold runResult
      rw [enlarges.budget]
      rfl
  | _ => rfl

theorem finishRun_enlarged
    (enlarges : simulator.configuration.Enlarges larger) (runEnd : RunEnd) :
    (simulator.enlarged larger).finishRun runEnd =
      (simulator.finishRun runEnd).enlarged larger := by
  have result := @runResult_enlarged larger { simulator with
    machine := simulator.machine.recordRun 0
    state := stateAfterRun runEnd } enlarges runEnd
  unfold finishRun Response.enlarged
  dsimp only
  rw [← result]
  rfl

theorem advance_enlarged (inBounds : ¬simulator.advance.IsOutOfBounds) :
    (simulator.enlarged larger).advance =
      simulator.advance.enlarged larger := by
  let extra := simulator.configuration.addedBytes larger
  have program : (simulator.enlarged larger).program = simulator.program := rfl
  have machine : (simulator.enlarged larger).machine =
      simulator.machine.withExtra extra := rfl
  have place : (simulator.machine.withExtra extra).pc =
      simulator.machine.pc := rfl
  unfold advance at inBounds ⊢
  rw [program, machine, place]
  by_cases past : simulator.program.size ≤ simulator.machine.pc
  · rw [if_pos past, if_pos past]
    rfl
  rw [if_neg past] at inBounds
  rw [if_neg past, if_neg past]
  cases executed : simulator.machine.execute
      simulator.program.instructions with
  | error executionError stopped =>
      obtain ⟨_, unchanged⟩ := Machine.execute_eq_error_iff.mp executed
      rw [executed] at inBounds
      rw [Machine.execute_withExtra_of_error extra executed
        (Response.isOutOfBounds_eq_false inBounds rfl), unchanged]
      rfl
  | ok outcome next =>
      rw [Machine.execute_withExtra_of_ok extra executed]
      rfl

theorem preProcess_enlarged :
    (simulator.enlarged larger).preProcess =
      simulator.preProcess.enlarged larger := by
  have sameSource : (simulator.enlarged larger).source = simulator.source :=
    rfl
  unfold preProcess
  rw [sameSource]
  cases assemble simulator.source with
  | error assemblyError => rfl
  | ok assembled => rfl

theorem step_enlarged (inBounds : ¬simulator.step.IsOutOfBounds) :
    (simulator.enlarged larger).step = simulator.step.enlarged larger := by
  have sameState : (simulator.enlarged larger).state = simulator.state := rfl
  unfold step at inBounds ⊢
  rw [sameState]
  cases running : simulator.state.isRunning with
  | true =>
      rw [running] at inBounds
      exact advance_enlarged inBounds
  | false =>
      rw [running] at inBounds
      rw [preProcess_enlarged]
      unfold preProcess at inBounds ⊢
      cases assembles : assemble simulator.source with
      | error assemblyError => rfl
      | ok assembled =>
          rw [assembles] at inBounds
          exact advance_enlarged inBounds

theorem run_enlarged {fuel : Nat}
    (enlarges : simulator.configuration.Enlarges larger)
    (ran : simulator.run fuel = some response)
    (inBounds : ¬response.IsOutOfBounds) :
    (simulator.enlarged larger).run fuel =
      some (response.enlarged larger) := by
  cases assembles : assemble simulator.source with
  | error assemblyError =>
      rw [run_of_refused assembles] at ran
      cases ran
      exact @run_of_refused (simulator.enlarged larger) _ assembles fuel
  | ok assembled =>
      rw [run_of_assembles assembles] at ran
      obtain ⟨⟨runEnd, stopped⟩, ends, rfl⟩ := Option.map_eq_some_iff.mp ran
      have kept : ∀ executionError, runEnd = .failed executionError →
          executionError.isOutOfBounds = false := by
        rintro executionError rfl
        exact Response.isOutOfBounds_eq_false inBounds rfl
      have alike := Machine.run_withExtra
        (simulator.configuration.addedBytes larger) ends kept
      have finished := @finishRun_enlarged larger
        { simulator.install assembled with machine := stopped } enlarges runEnd
      rw [enlarges.budget] at alike
      rw [@run_of_assembles (simulator.enlarged larger) _ assembles]
      exact (congrArg (Option.map _) alike).trans (congrArg some finished)

/-- Every call is answered alike, up to an access that is out of bounds.  Such
an access may succeed in the larger memory, or be refused for its alignment. -/
theorem answer?_enlarged
    (enlarges : simulator.configuration.Enlarges larger)
    (answers : simulator.answer? call = some response)
    (inBounds : ¬response.IsOutOfBounds) :
    (simulator.enlarged larger).answer? call =
      some (response.enlarged larger) := by
  cases call with
  | setSource source =>
      cases answers
      exact congrArg (fun after => some (Response.mk (.ok ()) after))
        (setSource_enlarged enlarges source)
  | loadFile files path =>
      cases answers
      exact congrArg some (loadFile_enlarged enlarges files path)
  | reset =>
      cases answers
      exact congrArg (fun after => some (Response.mk (.ok ()) after))
        (reset_enlarged enlarges)
  | preProcess =>
      cases answers
      exact congrArg some preProcess_enlarged
  | run fuel => exact run_enlarged enlarges answers inBounds
  | step =>
      cases answers
      exact congrArg some (step_enlarged inBounds)
  | clearLog =>
      cases answers
      rfl

/-! ## Many calls -/

theorem exchanges?_enlarged
    (enlarges : simulator.configuration.Enlarges larger)
    (answers : simulator.exchanges? calls = some exchanges)
    (inBounds : ∀ exchange ∈ exchanges, ¬exchange.2.IsOutOfBounds) :
    (simulator.enlarged larger).exchanges? calls =
      some (exchanges.map fun exchange =>
        (exchange.1, exchange.2.enlarged larger)) := by
  induction calls generalizing simulator exchanges with
  | nil =>
      cases answers
      rfl
  | cons call rest inductionHypothesis =>
      obtain ⟨response, others, answersFirst, rfl, answersRest⟩ :=
        exchanges?_cons_eq_some answers
      obtain ⟨inBoundsFirst, inBoundsRest⟩ := List.forall_mem_cons.mp inBounds
      have unchanged : response.simulator.configuration =
          simulator.configuration :=
        (answered_of_answer? answersFirst).configuration_eq
      have later := inductionHypothesis (unchanged ▸ enlarges) answersRest
        inBoundsRest
      rw [exchanges?, answer?_enlarged enlarges answersFirst inBoundsFirst]
      exact congrArg (Option.map _) later

theorem new_enlarged (enlarges : configuration.Enlarges larger)
    (source : String) :
    new source larger = (new source configuration).enlarged larger := by
  unfold new enlarged
  dsimp only
  rw [enlarges.fresh_eq]

/-- **More memory.**  Instructions that a machine executes it executes with
bytes added behind its memory too.  They come to the same machine with the same
bytes added, and the next one fails alike unless it leaves the memory.  So
calls on a new simulator have the same results with a larger memory, and
registers, program counter and log are the same after each, as long as none
fails because an instruction left the memory. -/
theorem larger_memory_is_harmless :
    (∀ (instructions : Array Instruction) (machine reached : Machine)
        (extra : ByteArray) (count : Nat) (outcome : Outcome),
      machine.iterate instructions count = some (outcome, reached) →
      (machine.withExtra extra).iterate instructions count =
        some (outcome, reached.withExtra extra) ∧
      ∀ executionError stopped,
        reached.execute instructions = .error executionError stopped →
        executionError.isOutOfBounds = false →
        (reached.withExtra extra).execute instructions =
          .error executionError (reached.withExtra extra)) ∧
    ∀ (configuration larger : Configuration) (source : String)
        (calls : List Call) (exchanges : List (Call × Response)),
      configuration.Enlarges larger →
      (new source configuration).exchanges? calls = some exchanges →
      (∀ exchange ∈ exchanges, ¬exchange.2.IsOutOfBounds) →
      (new source larger).exchanges? calls =
        some (exchanges.map fun exchange =>
          (exchange.1, exchange.2.enlarged larger)) := by
  constructor
  · intro instructions machine reached extra count outcome iterates
    exact ⟨Machine.iterate_withExtra extra iterates,
      fun executionError stopped failed inBounds =>
        Machine.execute_withExtra_of_error extra failed inBounds⟩
  · intro configuration larger source calls exchanges enlarges answers inBounds
    rw [new_enlarged enlarges source]
    exact @exchanges?_enlarged larger (new source configuration) calls
      exchanges enlarges answers inBounds

/-- A store in the last word of the memory, and a load between two words. -/
theorem larger_memory_is_harmless_store :
    let store : Instruction :=
      { Instruction.bare .sw 1 with rs := 0, rt := 0, immediate := 4 }
    let load : Instruction :=
      { Instruction.bare .lw 2 with rd := 0, rs := 0, immediate := 2 }
    let fault : ExecutionError := .fault 2 (.misalignedAccess 2 4)
    let configuration : Configuration := ⟨⟨false, none⟩, ⟨8, some 8⟩⟩
    let larger : Configuration := ⟨⟨true, none⟩, ⟨16, some 8⟩⟩
    (∃ reached, ((Machine.fresh configuration).withExtra
        (zeroBytes 3)).iterate #[store, load] 1 = some (.proceed, reached) ∧
      reached.execute #[store, load] = .error fault reached) ∧
    ∃ exchanges,
      (new "sw $zero, 4($zero)\nlw $zero, 2($zero)" larger).exchanges?
        [.step, .run 2] = some exchanges ∧
      exchanges.map (fun exchange => exchange.2.result) =
        [.ok (), .error (.execution fault)] := by
  intro store load fault configuration larger
  obtain ⟨extended, enlarged⟩ := larger_memory_is_harmless
  constructor
  · have steps : ((Machine.fresh configuration).iterate #[store, load] 1).map
        (fun reached =>
          (reached.1, (reached.2.step #[store, load]).map fun _ => ())) =
            some (.proceed, .error fault) := by
      decide +kernel
    obtain ⟨⟨outcome, reached⟩, iterates, same⟩ :=
      Option.map_eq_some_iff.mp steps
    obtain ⟨rfl, fails⟩ := Prod.mk.inj same
    obtain ⟨iteratesToo, failsToo⟩ :=
      extended _ _ reached (zeroBytes 3) 1 _ iterates
    cases stepped : reached.step #[store, load] with
    | error executionError =>
        rw [stepped] at fails
        cases fails
        have failed := Machine.execute_eq_error_iff.mpr ⟨stepped, rfl⟩
        exact ⟨_, iteratesToo, failsToo fault reached failed rfl⟩
    | ok next =>
        rw [stepped] at fails
        cases fails
  · have results : ((new "sw $zero, 4($zero)\nlw $zero, 2($zero)"
        configuration).exchanges? [.step, .run 2]).map
          (List.map fun exchange => exchange.2.result) =
            some [.ok (), .error (.execution fault)] := by
      decide +kernel
    obtain ⟨exchanges, answers, same⟩ := Option.map_eq_some_iff.mp results
    have enlarges : configuration.Enlarges larger :=
      ⟨⟨8, rfl, rfl⟩, rfl, by decide⟩
    refine ⟨_, enlarged configuration larger _ _ exchanges enlarges answers ?_,
      ?_⟩
    · rintro exchange among ⟨executionError, failed, outside⟩
      have result := List.mem_map_of_mem
        (f := fun exchange : Call × Response => exchange.2.result) among
      rw [same, failed] at result
      rcases List.mem_cons.mp result with succeeded | last
      · cases succeeded
      · cases List.mem_singleton.mp last
        cases outside
    · rw [List.map_map]
      exact same

end Simulator

end MiniMips
