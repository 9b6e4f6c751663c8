import MiniMips.Proofs.Machine.Agreement
import MiniMips.Proofs.Machine.EffectParts
import MiniMips.Proofs.Numeral

/-!
Contract: breakpoints take no part in a computation.

Owns:
- instructions with every breakpoint made idle, and the effect they then have;
- attempts: instructions executed one after the other, where one that fails is
  followed by the next attempt all the same;
- machines in step: one executes instructions and the other the same
  instructions with every breakpoint made idle, and they differ in the notes of
  pauses only;
- that a driver which stops without breakpoints either stops alike with them or
  pauses on the way there.

Does not own: what a breakpoint looks like in a source.
-/

namespace MiniMips

def Opcode.withoutBreakpoint : Opcode → Opcode
  | .breakpoint => .nop
  | opcode => opcode

/-- A breakpoint becomes idle.  Every other instruction stays what it is. -/
def Instruction.withoutBreakpoint (instruction : Instruction) : Instruction :=
  { instruction with opcode := instruction.opcode.withoutBreakpoint }

/-- What an effect does besides pausing. -/
def Effect.withoutPause (effect : Effect) : Effect :=
  { effect with
    entry? := effect.entry?.filter (fun entry => decide (entry ≠ .paused)) }

/-- The counts without that of breakpoints. -/
def Statistics.withoutBreakpoints (statistics : Statistics) : Statistics :=
  { statistics with breakpoints := 0 }

namespace Machine

/-- The output of a machine as it is shown. -/
def outputs (machine : Machine) : List String :=
  machine.log.toList.map LogEntry.text

/-- Execute an instruction and keep the machine, whether it fails or not. -/
def attempt (instructions : Array Instruction) (machine : Machine) :
    Except ExecutionError Outcome × Machine :=
  match machine.execute instructions with
  | .error executionError stopped => (.error executionError, stopped)
  | .ok outcome next => (.ok outcome, next)

/-- The answers to `count` attempts, each with the machine after it. -/
def attempts (instructions : Array Instruction) :
    (count : Nat) → Machine → List (Except ExecutionError Outcome × Machine)
  | 0, _ => []
  | count + 1, machine =>
      machine.attempt instructions ::
        attempts instructions count (machine.attempt instructions).2

/-- Two machines that were one, `start`, have come the same way, the first of
them over breakpoints. -/
structure InStep (start machine plain : Machine) : Prop where
  agrees : machine.Agrees plain
  statistics : machine.statistics.withoutBreakpoints =
    plain.statistics.withoutBreakpoints
  outputs : ∃ produced,
    machine.outputs = start.outputs ++ produced ∧
    plain.outputs = start.outputs ++
      produced.filter (fun text => decide (text ≠ LogEntry.paused.text))

end Machine

/-! ## Effects -/

theorem Opcode.action_ne_pause {opcode : Opcode}
    (running : opcode ≠ .breakpoint) : opcode.action ≠ .pause := by
  cases opcode with
  | breakpoint => exact absurd rfl running
  | _ => simp [action]

theorem Opcode.withoutBreakpoint_eq_self {opcode : Opcode}
    (running : opcode ≠ .breakpoint) : opcode.withoutBreakpoint = opcode := by
  unfold withoutBreakpoint
  split
  · exact absurd rfl running
  · rfl

theorem Opcode.instructionClass_withoutBreakpoint (opcode : Opcode) :
    opcode.withoutBreakpoint.instructionClass = opcode.instructionClass := by
  cases opcode <;> rfl

theorem Instruction.withoutBreakpoint_eq_self {instruction : Instruction}
    (running : instruction.opcode ≠ .breakpoint) :
    instruction.withoutBreakpoint = instruction := by
  unfold withoutBreakpoint
  rw [Opcode.withoutBreakpoint_eq_self running]

/-- Only a breakpoint notes a pause. -/
theorem Instruction.entry?_ne_paused {instruction : Instruction}
    {machine : Machine} {effect : Effect}
    (running : instruction.opcode ≠ .breakpoint)
    (effects : instruction.effect machine = .ok effect) :
    effect.entry? ≠ some .paused := by
  have acts := Opcode.action_ne_pause running
  rw [(madeBy_of_effect effects).2.logged]
  cases action : instruction.opcode.action with
  | pause => exact absurd action acts
  | _ => simp [logged?]

theorem Effect.withoutPause_eq_self {effect : Effect}
    (goesOn : effect.entry? ≠ some .paused) : effect.withoutPause = effect := by
  rcases effect with ⟨pc, taken, register?, bytes?, entry?⟩
  cases entry? with
  | none => rfl
  | some entry =>
      cases entry with
      | value word => rfl
      | paused => exact absurd rfl goesOn

theorem Effect.outcome_withoutPause (effect : Effect) :
    effect.withoutPause.outcome = .proceed := by
  rcases effect with ⟨pc, taken, register?, bytes?, entry?⟩
  cases entry? with
  | none => rfl
  | some entry => cases entry <;> rfl

/-- Making a breakpoint idle takes the pause out of its effect.  It never
faults, and no other instruction pauses. -/
theorem Instruction.effect_withoutBreakpoint (instruction : Instruction)
    (machine : Machine) :
    instruction.withoutBreakpoint.effect machine =
      (instruction.effect machine).map Effect.withoutPause := by
  by_cases pausing : instruction.opcode = .breakpoint
  · rcases instruction with ⟨opcode, rd, rs, rt, immediate, line, label?⟩
    cases pausing
    rfl
  · rw [withoutBreakpoint_eq_self pausing]
    cases effects : instruction.effect machine with
    | error fault => rfl
    | ok effect =>
        have goesOn := entry?_ne_paused pausing effects
        exact congrArg Except.ok (Effect.withoutPause_eq_self goesOn).symm

theorem LogEntry.text_ne_paused (word : Int32) :
    (LogEntry.value word).text ≠ LogEntry.paused.text := by
  intro same
  have literal := Numeral.isLiteral_ofInt word.toInt
  have sameText : Numeral.ofInt word.toInt = LogEntry.paused.text := same
  rw [sameText] at literal
  contradiction

theorem Statistics.withoutBreakpoints_record (statistics : Statistics)
    (instructionClass : InstructionClass) (taken : Bool) :
    (statistics.record instructionClass taken).withoutBreakpoints =
      statistics.withoutBreakpoints.record instructionClass taken := by
  cases instructionClass <;> cases taken <;> rfl

theorem Statistics.withoutBreakpoints_recordEffect
    {statistics other : Statistics}
    (same : statistics.withoutBreakpoints = other.withoutBreakpoints)
    (opcode : Opcode) (effect : Effect) :
    (statistics.recordEffect opcode effect).withoutBreakpoints =
      (other.recordEffect opcode.withoutBreakpoint
        effect.withoutPause).withoutBreakpoints := by
  have counted : (statistics.recordEffect opcode effect).withoutBreakpoints =
      (statistics.record opcode.instructionClass
        effect.taken).withoutBreakpoints := by
    unfold Statistics.recordEffect
    cases effect.outcome <;> rfl
  rw [counted, withoutBreakpoints_record, same, ← withoutBreakpoints_record]
  unfold Statistics.recordEffect
  rw [Effect.outcome_withoutPause, Opcode.instructionClass_withoutBreakpoint]
  rfl

namespace Machine

variable {instructions : Array Instruction}
  {start machine plain next stopped : Machine} {outcome : Outcome}
  {executionError : ExecutionError} {runEnd : RunEnd} {count : Nat}

/-! ## One instruction -/

theorem Agrees.executes_withoutBreakpoint (agrees : machine.Agrees plain)
    (executed : machine.execute instructions = .ok outcome next) :
    ∃ opcode effect, next = machine.apply opcode effect ∧
      plain.execute (instructions.map Instruction.withoutBreakpoint) =
        .ok .proceed (plain.apply opcode.withoutBreakpoint
          effect.withoutPause) := by
  obtain ⟨instruction, effect, present, effects, _, rfl⟩ :=
    execute_eq_ok_iff_effect.mp executed
  refine ⟨instruction.opcode, effect, rfl, ?_⟩
  refine execute_eq_ok_iff_effect.mpr
    ⟨instruction.withoutBreakpoint, effect.withoutPause, ?_, ?_,
      effect.outcome_withoutPause.symm, rfl⟩
  · rw [Array.getElem?_map, ← agrees.pc, present]
    rfl
  · rw [Instruction.effect_withoutBreakpoint, ← agrees.effect_eq, effects]
    rfl

theorem Agrees.fails_withoutBreakpoint (agrees : machine.Agrees plain)
    (failed : machine.execute instructions = .error executionError stopped) :
    plain.execute (instructions.map Instruction.withoutBreakpoint) =
      .error executionError plain := by
  obtain ⟨_, ⟨absent, rfl⟩ | ⟨instruction, fault, present, effects, rfl⟩⟩ :=
    execute_eq_error_iff_effect.mp failed
  · refine execute_eq_error_iff_effect.mpr ⟨rfl, .inl ⟨?_, ?_⟩⟩
    · rw [Array.getElem?_map, ← agrees.pc, absent]
      rfl
    · rw [Array.size_map, agrees.pc]
  · refine execute_eq_error_iff_effect.mpr ⟨rfl,
      .inr ⟨instruction.withoutBreakpoint, fault, ?_, ?_, rfl⟩⟩
    · rw [Array.getElem?_map, ← agrees.pc, present]
      rfl
    · rw [Instruction.effect_withoutBreakpoint, ← agrees.effect_eq, effects]
      rfl

theorem Agrees.apply_withoutBreakpoint (agrees : machine.Agrees plain)
    (opcode : Opcode) (effect : Effect) :
    (machine.apply opcode effect).Agrees
      (plain.apply opcode.withoutBreakpoint effect.withoutPause) := by
  cases machine
  cases plain
  obtain ⟨rfl, rfl, rfl⟩ := agrees
  exact ⟨rfl, rfl, rfl⟩

/-! ## Attempts -/

theorem InStep.refl (start : Machine) : InStep start start start where
  agrees := .refl start
  statistics := rfl
  outputs := ⟨[], by simp⟩

theorem outputs_apply (machine : Machine) (opcode : Opcode)
    (effect : Effect) :
    (machine.apply opcode effect).outputs =
      machine.outputs ++ (effect.entry?.map LogEntry.text).toList := by
  rcases machine with ⟨registers, pc, memory, log, statistics⟩
  unfold outputs apply
  cases effect.entry? with
  | none => simp
  | some entry => simp

theorem InStep.apply (inStep : InStep start machine plain) (opcode : Opcode)
    (effect : Effect) :
    InStep start (machine.apply opcode effect)
      (plain.apply opcode.withoutBreakpoint effect.withoutPause) where
  agrees := inStep.agrees.apply_withoutBreakpoint opcode effect
  statistics :=
    Statistics.withoutBreakpoints_recordEffect inStep.statistics opcode effect
  outputs := by
    obtain ⟨produced, outputs, plainOutputs⟩ := inStep.outputs
    refine ⟨produced ++ (effect.entry?.map LogEntry.text).toList, ?_, ?_⟩
    · rw [outputs_apply, outputs, List.append_assoc]
    · rw [outputs_apply, plainOutputs, List.append_assoc, List.filter_append]
      unfold Effect.withoutPause
      cases effect.entry? with
      | none => rfl
      | some entry =>
          cases entry with
          | paused => rfl
          | value word =>
              have kept : ¬(LogEntry.value word).text =
                  LogEntry.paused.text := LogEntry.text_ne_paused word
              simp [kept]

/-- **One attempt.**  Machines in step fail alike or stay in step. -/
theorem InStep.attempt (inStep : InStep start machine plain)
    (instructions : Array Instruction) :
    (plain.attempt (instructions.map Instruction.withoutBreakpoint)).1 =
        (machine.attempt instructions).1.map (fun _ => .proceed) ∧
      InStep start (machine.attempt instructions).2
        (plain.attempt (instructions.map Instruction.withoutBreakpoint)).2 := by
  unfold Machine.attempt
  cases executed : machine.execute instructions with
  | error executionError left =>
      obtain ⟨_, rfl⟩ := execute_eq_error_iff.mp executed
      rw [inStep.agrees.fails_withoutBreakpoint executed]
      exact ⟨rfl, inStep⟩
  | ok outcome next =>
      obtain ⟨opcode, effect, rfl, executedPlain⟩ :=
        inStep.agrees.executes_withoutBreakpoint executed
      rw [executedPlain]
      exact ⟨rfl, inStep.apply opcode effect⟩

/-- **Attempts.**  Machines in step get the same answers for ever, except that
one of them is never told to pause. -/
theorem InStep.attempts (inStep : InStep start machine plain)
    (instructions : Array Instruction) (count : Nat) :
    List.Forall₂
      (fun call other =>
        other.1 = call.1.map (fun _ => .proceed) ∧
        InStep start call.2 other.2)
      (machine.attempts instructions count)
      (plain.attempts (instructions.map Instruction.withoutBreakpoint)
        count) := by
  induction count generalizing machine plain with
  | zero => exact .nil
  | succ count inductionHypothesis =>
      have alike := inStep.attempt instructions
      exact .cons alike (inductionHypothesis alike.2)

/-! ## Stops -/

/-- Without breakpoints a driver is never told to pause. -/
theorem outcome_of_iterate_withoutBreakpoints
    (iterates : plain.iterate
      (instructions.map Instruction.withoutBreakpoint) count =
        some (outcome, stopped)) :
    outcome = .proceed := by
  cases count with
  | zero =>
      cases iterates
      rfl
  | succ count =>
      obtain ⟨_, before, _, executed⟩ := iterate_succ_eq_some iterates
      obtain ⟨idle, effect, present, effects, rfl, _⟩ :=
        execute_eq_ok_iff_effect.mp executed
      obtain ⟨instruction, _, rfl⟩ :=
        Option.map_eq_some_iff.mp (Array.getElem?_map.symm.trans present)
      rw [Instruction.effect_withoutBreakpoint] at effects
      cases original : instruction.effect before with
      | error fault =>
          rw [original] at effects
          contradiction
      | ok originalEffect =>
          rw [original] at effects
          cases effects
          exact originalEffect.outcome_withoutPause

theorem FirstStop.ne_paused_withoutBreakpoints
    (first : FirstStop (instructions.map Instruction.withoutBreakpoint) none
      plain count runEnd stopped) : runEnd ≠ .paused := by
  obtain ⟨outcome, iterates, reason⟩ := first.iterate_eq
  rw [outcome_of_iterate_withoutBreakpoints iterates] at reason
  exact ne_paused_of_stopReason? reason

/-- Before the first instruction there is the same reason to stop. -/
theorem Agrees.stopAfter?_zero_withoutBreakpoints
    (agrees : machine.Agrees plain) :
    plain.stopAfter? (instructions.map Instruction.withoutBreakpoint) none 0 =
      (machine.stopAfter? instructions none 0).map
        (fun stop => (stop.1, plain)) := by
  simp only [stopAfter?, iterate, stopReason?, Array.size_map, agrees.pc,
    reduceCtorEq, if_false]
  split
  · rfl
  cases executed : machine.execute instructions with
  | error executionError left =>
      rw [agrees.fails_withoutBreakpoint executed]
      rfl
  | ok outcome next =>
      obtain ⟨_, _, _, executedPlain⟩ :=
        agrees.executes_withoutBreakpoint executed
      rw [executedPlain]
      rfl

/-- **Pausing.**  Where a driver stops without breakpoints it either stops alike
with them, after as many instructions, or it pauses on the way there, with that
many instructions left. -/
theorem FirstStop.pausing
    (first : FirstStop (instructions.map Instruction.withoutBreakpoint) none
      plain count runEnd stopped) (agrees : machine.Agrees plain) :
    (∃ reached,
      FirstStop instructions none machine count runEnd reached ∧
      reached.Agrees stopped) ∨
    ∃ earlier reached idle,
      0 < earlier ∧ earlier ≤ count ∧
      FirstStop instructions none machine earlier .paused reached ∧
      reached.Agrees idle ∧
      FirstStop (instructions.map Instruction.withoutBreakpoint) none idle
        (count - earlier) runEnd stopped := by
  induction count generalizing machine plain with
  | zero =>
      have stops := first.stops
      rw [agrees.stopAfter?_zero_withoutBreakpoints] at stops
      cases beginning instructions none machine with
      | stop beginningEnd stopsMachine ends =>
          rw [stopsMachine] at stops
          cases stops
          exact .inl ⟨machine, FirstStop.zero stopsMachine, agrees⟩
      | pause next executed affordable goesOn ends =>
          rw [goesOn] at stops
          contradiction
      | proceed next executed affordable goesOn continues =>
          rw [goesOn] at stops
          contradiction
  | succ count inductionHypothesis =>
      have silent := first.goesOn 0 (Nat.succ_pos count)
      have silentMachine := silent
      rw [agrees.stopAfter?_zero_withoutBreakpoints] at silentMachine
      cases beginning instructions none machine with
      | stop beginningEnd stopsMachine ends =>
          rw [stopsMachine] at silentMachine
          contradiction
      | pause next executed affordable goesOn ends =>
          -- The breakpoint is the one instruction that is executed; without it
          -- there is an idle one in its place.
          obtain ⟨opcode, effect, rfl, executedPlain⟩ :=
            agrees.executes_withoutBreakpoint executed
          refine .inr ⟨1, _, _, Nat.one_pos, Nat.succ_le_succ (Nat.zero_le _),
            FirstStop.one_of_pause goesOn executed,
            agrees.apply_withoutBreakpoint opcode effect, ?_⟩
          exact (firstStop_succ_iff affordable silent executedPlain).mp first
      | proceed next executed affordable goesOn continues =>
          obtain ⟨opcode, effect, rfl, executedPlain⟩ :=
            agrees.executes_withoutBreakpoint executed
          have shift := fun count runEnd stopped =>
            @firstStop_succ_iff instructions none machine _ stopped runEnd
              count affordable goesOn executed
          have rest :=
            (firstStop_succ_iff affordable silent executedPlain).mp first
          rcases inductionHypothesis rest
              (agrees.apply_withoutBreakpoint opcode effect) with
            ⟨reached, same, agreesEnd⟩ |
            ⟨earlier, reached, idle, _, le, pauses, agreesPause, left⟩
          · exact .inl ⟨reached, (shift _ _ _).mpr same, agreesEnd⟩
          · refine .inr ⟨earlier + 1, reached, idle, Nat.succ_pos earlier,
              Nat.succ_le_succ le, (shift _ _ _).mpr pauses, agreesPause, ?_⟩
            rw [Nat.add_sub_add_right]
            exact left

end Machine

end MiniMips
