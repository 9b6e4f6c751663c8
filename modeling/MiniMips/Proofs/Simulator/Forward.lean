import MiniMips.Proofs.Machine.Forward
import MiniMips.Proofs.Simulator.Stability

/-!
Contract: simulators of forward programs.

Owns:
- that every run of a forward program returns without a budget;
- what every run and every step makes of a simulator of such a program: it
  executes an instruction, or it finds that the program has ended;
- that the program has ended after as many calls as there are instructions, and
  one more.
-/

namespace MiniMips.Simulator

/-- A simulator of a program without a budget, whose machine has executed no
more instructions than it has passed. -/
structure Progressing (assembled : Assembled) (simulator : Simulator) :
    Prop extends Coherent simulator where
  assembles : assemble simulator.source = .ok assembled
  unlimited : simulator.configuration.general.maxSteps? = none
  advancing : simulator.machine.Advancing assembled.program

/-- A simulator that has found the end of a program. -/
structure Ended (program : Program) (simulator : Simulator) : Prop where
  halted : simulator.state = .halted
  past : program.size ≤ simulator.machine.pc

/-- How many instructions have been executed since the last reset. -/
def retired (simulator : Simulator) : Nat :=
  simulator.machine.statistics.retired

variable {assembled : Assembled} {simulator ready after : Simulator}
  {call : Call} {calls : List Call} {response : Response}
  {exchanges : List (Call × Response)} {count : Nat}

theorem progressing_reset
    (assembles : assemble simulator.source = .ok assembled)
    (unlimited : simulator.configuration.general.maxSteps? = none) :
    Progressing assembled simulator.reset where
  toCoherent := coherent_reset simulator
  assembles := assembles
  unlimited := unlimited
  advancing := ⟨Nat.le_refl 0, Nat.zero_le _⟩

/-- With fuel for every instruction of a forward program a run returns. -/
theorem exists_response_of_forward
    (assembles : assemble simulator.source = .ok assembled)
    (unlimited : simulator.configuration.general.maxSteps? = none)
    (forward : assembled.program.IsForward) {fuel : Nat}
    (enough : assembled.program.size < fuel) :
    ∃ response, simulator.run fuel = some response := by
  obtain ⟨count, runEnd, stopped, few, first⟩ :=
    forward.exists_firstStop simulator.machine
  have ran := Machine.run_of_firstStop first
    (Nat.lt_of_le_of_lt (Nat.le_trans few (Nat.sub_le _ _)) enough)
  rw [run_of_assembles assembles, unlimited, ran]
  exact ⟨_, rfl⟩

/-! ## One call -/

/-- Making a simulator ready installs the program and leaves the rest. -/
theorem Progressing.of_ready (progressing : Progressing assembled simulator)
    (prepared : Ready simulator ready) :
    ready.program = assembled.program ∧
      ready.machine = simulator.machine ∧
      assemble ready.source = .ok assembled ∧
      ready.configuration.general.maxSteps? = none := by
  have upToDate := progressing.upToDate_of_ready prepared
  unfold UpToDate at upToDate
  have frame := prepared.frame
  rw [frame] at upToDate
  cases progressing.assembles.symm.trans upToDate
  rw [frame]
  exact ⟨rfl, rfl, progressing.assembles, progressing.unlimited⟩

/-- What a run or a step does: unless it fails, it finds the end of the program,
or it executes an instruction. -/
structure Progresses (assembled : Assembled) (simulator : Simulator)
    (response : Response) : Prop where
  progressing : Progressing assembled response.simulator
  moves : response.result = .ok () →
    Ended assembled.program response.simulator ∨
      simulator.machine.pc < assembled.program.size ∧
        simulator.retired < response.simulator.retired

theorem Progressing.ran (progressing : Progressing assembled simulator)
    (forward : assembled.program.IsForward) {runEnd : RunEnd}
    {stopped : Machine}
    (first : Machine.FirstStop assembled.program.instructions none
      simulator.machine count runEnd stopped) :
    stopped.Advancing assembled.program ∧
      (runEnd = .finished ∧ assembled.program.size ≤ stopped.pc ∨
        (∃ executionError, runEnd = .failed executionError) ∨
        runEnd = .paused ∧ simulator.machine.pc < assembled.program.size ∧
          simulator.retired < stopped.statistics.retired) := by
  obtain ⟨outcome, iterates, reason⟩ := first.iterate_eq
  refine ⟨progressing.advancing.iterate forward iterates, ?_⟩
  cases Machine.stopsFor_of_stopReason? reason with
  | finished past => exact .inl ⟨rfl, past⟩
  | failed inside fails => exact .inr (.inl ⟨_, rfl⟩)
  | outOfBudget inside exhausted => contradiction
  | paused told =>
      refine .inr (.inr ⟨rfl, ?_⟩)
      cases count with
      | zero =>
          -- No instruction has told the driver to pause yet.
          cases iterates
          contradiction
      | succ count =>
          have goesOn := first.goesOn 0 (Nat.succ_pos count)
          have inside : simulator.machine.pc < assembled.program.size := by
            by_contra past
            have outside : assembled.program.instructions.size ≤
                simulator.machine.pc := Nat.le_of_not_lt past
            simp [Machine.stopAfter?, Machine.iterate, Machine.stopReason?,
              outside] at goesOn
          have counted := Machine.retired_of_iterate iterates
          exact ⟨inside, by unfold retired; omega⟩

theorem Progressing.answered (progressing : Progressing assembled simulator)
    (forward : assembled.program.IsForward) (executes : call.executes = true)
    (answered : Answered simulator call response) :
    Progresses assembled simulator response := by
  have coherent := progressing.toCoherent.answered answered
  cases answered with
  | ran assembles ends =>
      cases progressing.assembles.symm.trans assembles
      rw [progressing.unlimited] at ends
      obtain ⟨count, first⟩ := Machine.firstStop_of_run ends
      obtain ⟨advancing, ending⟩ := progressing.ran forward first
      refine ⟨⟨coherent, assembles, progressing.unlimited,
        advancing.behind, advancing.bounded⟩, fun succeeds => ?_⟩
      rcases ending with
        ⟨rfl, past⟩ | ⟨executionError, rfl⟩ | ⟨rfl, inside, more⟩
      · exact .inl ⟨rfl, past⟩
      · cases succeeds
      · exact .inr ⟨inside, more⟩
  | @pastEnd ready prepared past =>
      obtain ⟨program, machine, assembles, unlimited⟩ :=
        progressing.of_ready prepared
      have advancing := progressing.advancing
      rw [← machine] at advancing
      rw [program] at past
      exact ⟨⟨coherent, assembles, unlimited, advancing⟩,
        fun _ => .inl ⟨rfl, past⟩⟩
  | @faulted ready _ prepared inside faults =>
      obtain ⟨_, machine, assembles, unlimited⟩ :=
        progressing.of_ready prepared
      have advancing := progressing.advancing
      rw [← machine] at advancing
      refine ⟨⟨coherent, assembles, unlimited, advancing⟩, ?_⟩
      intro succeeds
      cases succeeds
  | @stepped ready _ next prepared inside executed =>
      obtain ⟨program, machine, assembles, unlimited⟩ :=
        progressing.of_ready prepared
      rw [machine, program] at executed inside
      have advancing := progressing.advancing.execute forward executed
      refine ⟨⟨coherent, assembles, unlimited, advancing⟩,
        fun _ => .inr ⟨inside, ?_⟩⟩
      show simulator.retired < next.statistics.retired
      rw [Machine.execute_retired executed]
      exact Nat.lt_succ_self _
  | notRun refused | notStepped _ refused =>
      rw [progressing.assembles] at refused
      contradiction
  | _ => cases executes

/-! ## Many calls -/

/-- After so many calls that all succeeded, a simulator has found the end of its
program, or it has executed as many instructions. -/
theorem Progressing.after_calls
    (progressing : Progressing assembled simulator)
    (forward : assembled.program.IsForward)
    (executes : ∀ call ∈ calls, call.executes = true)
    (answers : simulator.exchanges? calls = some exchanges)
    (history : simulator.after? calls = some after) :
    Progressing assembled after ∧
    (∀ exchange ∈ exchanges, Progressing assembled exchange.2.simulator) ∧
    ((∀ exchange ∈ exchanges, exchange.2.result = .ok ()) →
      Ended assembled.program simulator ∨ count ≤ simulator.retired →
      Ended assembled.program after ∨
        count + calls.length ≤ after.retired) := by
  induction calls generalizing simulator exchanges count with
  | nil =>
      cases answers
      cases history
      exact ⟨progressing, by simp, fun _ before => before⟩
  | cons call rest inductionHypothesis =>
      obtain ⟨executesFirst, executesRest⟩ := List.forall_mem_cons.mp executes
      obtain ⟨response, others, answersFirst, rfl, answersRest⟩ :=
        exchanges?_cons_eq_some answers
      rw [after?, answersFirst] at history
      obtain ⟨progressingNext, moves⟩ :=
        progressing.answered forward executesFirst
          (answered_of_answer? answersFirst)
      obtain ⟨progressingAfter, progressingRest, further⟩ :=
        @inductionHypothesis response.simulator others (count + 1)
          progressingNext executesRest answersRest history
      refine ⟨progressingAfter,
        List.forall_mem_cons.mpr ⟨progressingNext, progressingRest⟩, ?_⟩
      intro succeed before
      obtain ⟨succeeds, succeedRest⟩ := List.forall_mem_cons.mp succeed
      have next : Ended assembled.program response.simulator ∨
          count + 1 ≤ response.simulator.retired := by
        rcases moves succeeds with ended | ⟨inside, more⟩
        · exact .inl ended
        rcases before with ended | counted
        · exact absurd ended.past (Nat.not_le_of_lt inside)
        · exact .inr (Nat.lt_of_le_of_lt counted more)
      rw [List.length_cons, Nat.add_comm rest.length 1, ← Nat.add_assoc]
      exact further succeedRest next

theorem Progressing.exists_exchanges
    (progressing : Progressing assembled simulator)
    (forward : assembled.program.IsForward)
    (executes : ∀ call ∈ calls, call.executes = true)
    (enough : ∀ fuel, .run fuel ∈ calls → assembled.program.size < fuel) :
    ∃ exchanges, simulator.exchanges? calls = some exchanges := by
  induction calls generalizing simulator with
  | nil => exact ⟨[], rfl⟩
  | cons call rest inductionHypothesis =>
      obtain ⟨executesFirst, executesRest⟩ := List.forall_mem_cons.mp executes
      obtain ⟨response, answers⟩ :
          ∃ response, simulator.answer? call = some response := by
        cases call with
        | run fuel =>
            exact exists_response_of_forward progressing.assembles
              progressing.unlimited forward (enough fuel (by simp))
        | step => exact ⟨_, rfl⟩
        | _ => cases executesFirst
      obtain ⟨progressingNext, _⟩ :=
        progressing.answered forward executesFirst
          (answered_of_answer? answers)
      obtain ⟨exchanges, later⟩ := inductionHypothesis progressingNext
        executesRest (fun fuel among =>
          enough fuel (List.mem_cons_of_mem _ among))
      refine ⟨(call, response) :: exchanges, ?_⟩
      rw [exchanges?, answers]
      simp only [later, Option.map_some]

/-- **Forward programs.**  Without a budget, every run of a forward program
returns, however the machine stands.  From a reset on, runs and steps in any
order execute no more instructions than the program has.  Once one call more
than there are instructions has been answered, all with success, the program
has ended. -/
theorem forward_program_halts (simulator : Simulator)
    (assembled : Assembled)
    (assembles : assemble simulator.source = .ok assembled)
    (forward : assembled.program.IsForward)
    (unlimited : simulator.configuration.general.maxSteps? = none) :
    (∀ fuel, assembled.program.size < fuel →
      ∃ response, simulator.run fuel = some response) ∧
    ∀ calls : List Call, (∀ call ∈ calls, call.executes = true) →
      ((∀ fuel, .run fuel ∈ calls → assembled.program.size < fuel) →
        ∃ exchanges, simulator.reset.exchanges? calls = some exchanges) ∧
      ∀ exchanges after,
        simulator.reset.exchanges? calls = some exchanges →
        simulator.reset.after? calls = some after →
        (∀ exchange ∈ exchanges,
          exchange.2.simulator.retired ≤ assembled.program.size) ∧
        (assembled.program.size < calls.length →
          (∀ exchange ∈ exchanges, exchange.2.result = .ok ()) →
          after.state = .halted ∧ after.isRunning = false ∧
            after.isPaused = false) := by
  have progressing := progressing_reset assembles unlimited
  refine ⟨fun fuel => exists_response_of_forward assembles unlimited forward,
    fun calls executes =>
      ⟨progressing.exists_exchanges forward executes, ?_⟩⟩
  intro exchanges after answers history
  obtain ⟨progressingAfter, progressings, counts⟩ :=
    @Progressing.after_calls _ _ after calls exchanges 0 progressing forward
      executes answers history
  refine ⟨fun exchange among => (progressings exchange among).advancing.bounded,
    fun many succeed => ?_⟩
  rcases counts succeed (.inr (Nat.zero_le _)) with ended | counted
  · unfold isRunning isPaused
    rw [ended.halted]
    exact ⟨rfl, rfl, rfl⟩
  · have bounded : after.retired ≤ assembled.program.size :=
      progressingAfter.advancing.bounded
    omega

/-- A branch past the end of the program, a breakpoint that it skips, and steps
and runs in turn. -/
theorem forward_program_halts_branch :
    let simulator :=
      new "bgez $zero, 4\nbreak" { Configuration.standard with
        memory := ⟨8, none⟩ }
    ∃ exchanges after,
      simulator.exchanges? [.step, .run 3, .step] = some exchanges ∧
      simulator.after? [.step, .run 3, .step] = some after ∧
      after.state = .halted ∧ after.isPaused = false ∧
      ∀ exchange ∈ exchanges, exchange.2.simulator.retired ≤ 2 := by
  intro simulator
  let branch : Instruction :=
    { Instruction.bare .bgez 1 with rs := 0, immediate := 4 }
  let assembled : Assembled :=
    ⟨[⟨.mnemonic "bgez", "bgez", 1⟩, ⟨.register 0, "$zero", 1⟩,
      ⟨.immediate 4, "4", 1⟩, ⟨.mnemonic "break", "break", 2⟩],
      ⟨#[branch, .bare .breakpoint 2], .empty⟩⟩
  have assembles : assemble simulator.source = .ok assembled := by
    decide +kernel
  have forward : assembled.program.IsForward := by
    intro address instruction present
    match address with
    | 0 =>
        cases present
        refine ⟨by decide, by decide, fun target leads => ?_⟩
        cases leads
        decide
    | 1 =>
        cases present
        refine ⟨by decide, by decide, fun target leads => ?_⟩
        cases leads
    | address + 2 => cases present
  obtain ⟨_, answered⟩ :=
    forward_program_halts simulator assembled assembles forward rfl
  obtain ⟨returns, halts⟩ :=
    answered [.step, .run 3, .step] (by simp [Call.executes])
  obtain ⟨exchanges, answers⟩ := returns (by simp [assembled, Program.size])
  have reached : (simulator.reset.after? [.step, .run 3, .step]).isSome := by
    decide +kernel
  obtain ⟨after, history⟩ := Option.isSome_iff_exists.mp reached
  have results : (simulator.reset.exchanges? [.step, .run 3, .step]).map
      (List.map fun exchange => exchange.2.result) =
        some (List.replicate 3 (.ok ())) := by
    decide +kernel
  obtain ⟨bounded, ends⟩ := halts exchanges after answers history
  have succeed : ∀ exchange ∈ exchanges, exchange.2.result = .ok () := by
    rw [answers] at results
    intro exchange among
    have result := List.mem_map_of_mem
      (f := fun exchange : Call × Response => exchange.2.result) among
    rw [Option.some.inj results] at result
    exact List.eq_of_mem_replicate result
  obtain ⟨halted, _, notPaused⟩ := ends (by decide) succeed
  exact ⟨exchanges, after, answers, history, halted, notPaused, bounded⟩

end MiniMips.Simulator
