import MiniMips.Proofs.Machine.Footprint

/-!
Contract: runs of a machine, told without fuel.

Owns:
- the machine after a number of instructions, executed one after the other;
- the reasons to stop there, in the order in which a driver looks at them;
- that a run with enough fuel ends at the first number of instructions after
  which there is such a reason, and that no run ends anywhere else;
- that a budget bounds this number and cuts the way there into slices, and that
  the number is counted.

A run looks ahead: it stops at a breakpoint when the instruction returns, and
for the other reasons before the next instruction.  The iteration looks back at
the last instruction instead, so that all reasons are looked at in one place.
-/

namespace MiniMips.Machine

/-- The machine after `count` instructions, none of which faults, and what the
driver was told by the last of them. -/
def iterate (instructions : Array Instruction) :
    (count : Nat) → Machine → Option (Outcome × Machine)
  | 0, machine => some (.proceed, machine)
  | count + 1, machine =>
      match iterate instructions count machine with
      | none => none
      | some (_, reached) =>
          match reached.execute instructions with
          | .error _ _ => none
          | .ok outcome next => some (outcome, next)

/-- Why a driver stops after `count` instructions, the last of which has told
it `outcome`. -/
def stopReason? (instructions : Array Instruction) (budget : Option Nat)
    (count : Nat) (outcome : Outcome) (machine : Machine) : Option RunEnd :=
  if outcome = .pause then
    some .paused
  else if instructions.size ≤ machine.pc then
    some .finished
  else if budget = some count then
    some .outOfBudget
  else
    match machine.execute instructions with
    | .error executionError _ => some (.failed executionError)
    | .ok _ _ => none

/-- Why and with which machine a driver stops after `count` instructions. -/
def stopAfter? (instructions : Array Instruction) (budget : Option Nat)
    (start : Machine) (count : Nat) : Option (RunEnd × Machine) :=
  match start.iterate instructions count with
  | none => none
  | some (outcome, reached) =>
      (reached.stopReason? instructions budget count outcome).map
        (fun runEnd => (runEnd, reached))

/-- There is a reason to stop after `count` instructions, and none before. -/
structure FirstStop (instructions : Array Instruction) (budget : Option Nat)
    (start : Machine) (count : Nat) (runEnd : RunEnd) (stopped : Machine) :
    Prop where
  stops : start.stopAfter? instructions budget count = some (runEnd, stopped)
  goesOn : ∀ earlier, earlier < count →
    start.stopAfter? instructions budget earlier = none

variable {instructions : Array Instruction} {budget : Option Nat}
  {start next stopped : Machine} {runEnd : RunEnd} {count fuel : Nat}

/-! ## The first instruction of an iteration -/

theorem iterate_succ_of_proceed
    (executed : start.execute instructions = .ok .proceed next)
    (count : Nat) :
    start.iterate instructions (count + 1) =
      next.iterate instructions count := by
  induction count with
  | zero => simp only [iterate, executed]
  | succ count inductionHypothesis =>
      rw [iterate, inductionHypothesis, iterate]

theorem stopReason?_succ (affordable : budget ≠ some 0) (count : Nat)
    (outcome : Outcome) (machine : Machine) :
    machine.stopReason? instructions budget (count + 1) outcome =
      machine.stopReason? instructions (budget.map (· - 1)) count outcome := by
  have sameLimit : budget = some (count + 1) ↔
      budget.map (· - 1) = some count := by
    cases budget with
    | none => simp
    | some limit =>
        have positive : limit ≠ 0 := fun exhausted =>
          affordable (congrArg some exhausted)
        simp only [Option.map_some, Option.some.injEq]
        omega
  simp only [stopReason?, sameLimit]

theorem stopAfter?_succ_of_proceed (affordable : budget ≠ some 0)
    (executed : start.execute instructions = .ok .proceed next)
    (count : Nat) :
    start.stopAfter? instructions budget (count + 1) =
      next.stopAfter? instructions (budget.map (· - 1)) count := by
  simp only [stopAfter?, iterate_succ_of_proceed executed,
    stopReason?_succ affordable]

theorem stopAfter?_one_of_pause
    (executed : start.execute instructions = .ok .pause next) :
    start.stopAfter? instructions budget 1 = some (.paused, next) := by
  simp only [stopAfter?, iterate, executed, stopReason?, if_true,
    Option.map_some]

/-- What a driver finds at the start, as a run and as an iteration see it. -/
inductive Beginning (instructions : Array Instruction) (budget : Option Nat)
    (start : Machine) : Prop where
  | stop (runEnd : RunEnd)
      (stops : start.stopAfter? instructions budget 0 = some (runEnd, start))
      (ends : ∀ fuel, run instructions (fuel + 1) budget start =
        some (runEnd, start))
  | pause (next : Machine)
      (executed : start.execute instructions = .ok .pause next)
      (affordable : budget ≠ some 0)
      (goesOn : start.stopAfter? instructions budget 0 = none)
      (ends : ∀ fuel, run instructions (fuel + 1) budget start =
        some (.paused, next))
  | proceed (next : Machine)
      (executed : start.execute instructions = .ok .proceed next)
      (affordable : budget ≠ some 0)
      (goesOn : start.stopAfter? instructions budget 0 = none)
      (continues : ∀ fuel, run instructions (fuel + 1) budget start =
        run instructions fuel (budget.map (· - 1)) next)

theorem beginning (instructions : Array Instruction) (budget : Option Nat)
    (start : Machine) : Beginning instructions budget start := by
  by_cases finished : instructions.size ≤ start.pc
  · apply Beginning.stop .finished
    · simp [stopAfter?, iterate, stopReason?, finished]
    · intro fuel
      rw [run, if_pos finished]
  by_cases exhausted : budget = some 0
  · apply Beginning.stop .outOfBudget
    · simp [stopAfter?, iterate, stopReason?, finished, exhausted]
    · intro fuel
      rw [run, if_neg finished, if_pos exhausted]
  cases executed : start.execute instructions with
  | error executionError left =>
      obtain ⟨_, unchanged⟩ := execute_eq_error_iff.mp executed
      apply Beginning.stop (.failed executionError)
      · simp [stopAfter?, iterate, stopReason?, finished, exhausted, executed]
      · intro fuel
        rw [run, if_neg finished, if_neg exhausted, executed, unchanged]
  | ok outcome next =>
      have goesOn : start.stopAfter? instructions budget 0 = none := by
        simp [stopAfter?, iterate, stopReason?, finished, exhausted, executed]
      cases outcome with
      | pause =>
          apply Beginning.pause next executed exhausted goesOn
          intro fuel
          rw [run, if_neg finished, if_neg exhausted, executed]
      | proceed =>
          apply Beginning.proceed next executed exhausted goesOn
          intro fuel
          rw [run, if_neg finished, if_neg exhausted, executed]

/-! ## First stops and runs -/

theorem FirstStop.zero
    (stops : start.stopAfter? instructions budget 0 =
      some (runEnd, stopped)) :
    FirstStop instructions budget start 0 runEnd stopped where
  stops := stops
  goesOn := fun _ earlierLt => absurd earlierLt (Nat.not_lt_zero _)

theorem FirstStop.one_of_pause
    (goesOn : start.stopAfter? instructions budget 0 = none)
    (executed : start.execute instructions = .ok .pause next) :
    FirstStop instructions budget start 1 .paused next where
  stops := stopAfter?_one_of_pause executed
  goesOn := by
    intro earlier earlierLt
    rw [Nat.lt_one_iff.mp earlierLt]
    exact goesOn

theorem firstStop_succ_iff (affordable : budget ≠ some 0)
    (goesOn : start.stopAfter? instructions budget 0 = none)
    (executed : start.execute instructions = .ok .proceed next) :
    FirstStop instructions budget start (count + 1) runEnd stopped ↔
      FirstStop instructions (budget.map (· - 1)) next count runEnd
        stopped := by
  have shift := stopAfter?_succ_of_proceed affordable executed
  constructor
  · intro first
    refine ⟨(shift count).symm.trans first.stops, ?_⟩
    intro earlier earlierLt
    rw [← shift earlier]
    exact first.goesOn (earlier + 1) (Nat.succ_lt_succ earlierLt)
  · intro first
    refine ⟨(shift count).trans first.stops, ?_⟩
    intro earlier earlierLt
    cases earlier with
    | zero => exact goesOn
    | succ earlier =>
        rw [shift earlier]
        exact first.goesOn earlier (Nat.lt_of_succ_lt_succ earlierLt)

theorem FirstStop.unique {otherCount : Nat} {otherEnd : RunEnd}
    {otherStopped : Machine}
    (first : FirstStop instructions budget start count runEnd stopped)
    (other : FirstStop instructions budget start otherCount otherEnd
      otherStopped) :
    count = otherCount ∧ runEnd = otherEnd ∧ stopped = otherStopped := by
  have notLess : ¬count < otherCount := by
    intro less
    have silent := other.goesOn count less
    rw [first.stops] at silent
    contradiction
  have notMore : ¬otherCount < count := by
    intro more
    have silent := first.goesOn otherCount more
    rw [other.stops] at silent
    contradiction
  have sameCount : count = otherCount := by omega
  subst sameCount
  cases first.stops.symm.trans other.stops
  exact ⟨rfl, rfl, rfl⟩

/-- **Completeness.**  With more fuel than instructions, a run ends at the
first stop. -/
theorem run_of_firstStop
    (first : FirstStop instructions budget start count runEnd stopped)
    (enough : count < fuel) :
    run instructions fuel budget start = some (runEnd, stopped) := by
  induction count generalizing budget start fuel with
  | zero =>
      obtain ⟨remaining, rfl⟩ := Nat.exists_eq_succ_of_ne_zero
        (Nat.ne_of_gt enough)
      cases beginning instructions budget start with
      | stop beginningEnd stops ends =>
          rw [ends remaining, ← stops]
          exact first.stops
      | pause next executed affordable goesOn ends =>
          rw [first.stops] at goesOn
          contradiction
      | proceed next executed affordable goesOn continues =>
          rw [first.stops] at goesOn
          contradiction
  | succ count inductionHypothesis =>
      obtain ⟨remaining, rfl⟩ := Nat.exists_eq_succ_of_ne_zero
        (Nat.ne_of_gt (Nat.zero_lt_of_lt enough))
      have silent := first.goesOn 0 (Nat.succ_pos count)
      cases beginning instructions budget start with
      | stop beginningEnd stops ends =>
          rw [stops] at silent
          contradiction
      | pause next executed affordable goesOn ends =>
          -- The breakpoint is the first stop, so nothing follows it.
          obtain ⟨_, rfl, rfl⟩ :=
            first.unique (FirstStop.one_of_pause goesOn executed)
          exact ends remaining
      | proceed next executed affordable goesOn continues =>
          rw [continues remaining]
          exact inductionHypothesis
            ((firstStop_succ_iff affordable goesOn executed).mp first)
            (Nat.lt_of_succ_lt_succ enough)

/-- **Soundness.**  Wherever a run ends, there is a first stop. -/
theorem firstStop_of_run
    (ran : run instructions fuel budget start = some (runEnd, stopped)) :
    ∃ count, FirstStop instructions budget start count runEnd stopped := by
  induction fuel generalizing budget start with
  | zero =>
      rw [run] at ran
      contradiction
  | succ fuel inductionHypothesis =>
      cases beginning instructions budget start with
      | stop beginningEnd stops ends =>
          rw [ends fuel, ← stops] at ran
          exact ⟨0, FirstStop.zero ran⟩
      | pause next executed affordable goesOn ends =>
          rw [ends fuel] at ran
          cases ran
          exact ⟨1, FirstStop.one_of_pause goesOn executed⟩
      | proceed next executed affordable goesOn continues =>
          rw [continues fuel] at ran
          obtain ⟨count, first⟩ := inductionHypothesis ran
          exact ⟨count + 1,
            (firstStop_succ_iff affordable goesOn executed).mpr first⟩

/-! ## Budgets and counts -/

theorem exists_firstStop_of_budget (limit : Nat) (start : Machine) :
    ∃ count runEnd stopped, count ≤ limit ∧
      FirstStop instructions (some limit) start count runEnd stopped := by
  induction limit generalizing start with
  | zero =>
      cases beginning instructions (some 0) start with
      | stop runEnd stops ends =>
          exact ⟨0, runEnd, start, Nat.le_refl 0, FirstStop.zero stops⟩
      | pause next executed affordable goesOn ends =>
          exact absurd rfl affordable
      | proceed next executed affordable goesOn continues =>
          exact absurd rfl affordable
  | succ limit inductionHypothesis =>
      cases beginning instructions (some (limit + 1)) start with
      | stop runEnd stops ends =>
          exact ⟨0, runEnd, start, Nat.zero_le _, FirstStop.zero stops⟩
      | pause next executed affordable goesOn ends =>
          exact ⟨1, .paused, next, Nat.succ_le_succ (Nat.zero_le limit),
            FirstStop.one_of_pause goesOn executed⟩
      | proceed next executed affordable goesOn continues =>
          obtain ⟨count, runEnd, stopped, countLe, first⟩ :=
            inductionHypothesis next
          exact ⟨count + 1, runEnd, stopped, Nat.succ_le_succ countLe,
            (firstStop_succ_iff affordable goesOn executed).mpr first⟩

theorem FirstStop.iterate_eq
    (first : FirstStop instructions budget start count runEnd stopped) :
    ∃ outcome,
      start.iterate instructions count = some (outcome, stopped) ∧
      stopped.stopReason? instructions budget count outcome =
        some runEnd := by
  have stops := first.stops
  unfold stopAfter? at stops
  cases iterates : start.iterate instructions count with
  | none =>
      rw [iterates] at stops
      contradiction
  | some pair =>
      rcases pair with ⟨outcome, reached⟩
      rw [iterates] at stops
      obtain ⟨reason, because, same⟩ := Option.map_eq_some_iff.mp stops
      cases same
      exact ⟨outcome, rfl, because⟩

/-- Every reason to stop, with what was looked at before it. -/
inductive StopsFor (instructions : Array Instruction) (budget : Option Nat)
    (count : Nat) (outcome : Outcome) (machine : Machine) : RunEnd → Prop where
  | paused (told : outcome = .pause) :
      StopsFor instructions budget count outcome machine .paused
  | finished (past : instructions.size ≤ machine.pc) :
      StopsFor instructions budget count outcome machine .finished
  | outOfBudget (inside : machine.pc < instructions.size)
      (exhausted : budget = some count) :
      StopsFor instructions budget count outcome machine .outOfBudget
  | failed {executionError : ExecutionError} {left : Machine}
      (inside : machine.pc < instructions.size)
      (fails : machine.execute instructions = .error executionError left) :
      StopsFor instructions budget count outcome machine
        (.failed executionError)

theorem stopsFor_of_stopReason? {outcome : Outcome} {machine : Machine}
    (reason : machine.stopReason? instructions budget count outcome =
      some runEnd) :
    StopsFor instructions budget count outcome machine runEnd := by
  unfold stopReason? at reason
  by_cases told : outcome = .pause
  · rw [if_pos told] at reason
    cases reason
    exact .paused told
  rw [if_neg told] at reason
  by_cases past : instructions.size ≤ machine.pc
  · rw [if_pos past] at reason
    cases reason
    exact .finished past
  have inside := Nat.lt_of_not_le past
  rw [if_neg past] at reason
  by_cases exhausted : budget = some count
  · rw [if_pos exhausted] at reason
    cases reason
    exact .outOfBudget inside exhausted
  rw [if_neg exhausted] at reason
  cases executed : machine.execute instructions with
  | error executionError left =>
      rw [executed] at reason
      cases reason
      exact .failed inside executed
  | ok told next =>
      rw [executed] at reason
      contradiction

/-- A budget stops a driver only where it is used up and there is an
instruction left. -/
theorem budget_of_stopReason? {outcome : Outcome} {machine : Machine}
    (reason : machine.stopReason? instructions budget count outcome =
      some .outOfBudget) :
    budget = some count ∧ machine.pc < instructions.size := by
  cases stopsFor_of_stopReason? reason with
  | outOfBudget inside exhausted => exact ⟨exhausted, inside⟩

theorem FirstStop.ne_outOfBudget
    (first : FirstStop instructions none start count runEnd stopped) :
    runEnd ≠ .outOfBudget := by
  rintro rfl
  obtain ⟨outcome, _, reason⟩ := first.iterate_eq
  obtain ⟨unlimited, _⟩ := budget_of_stopReason? reason
  contradiction

/-- A budget that is not used up yet plays no part in the reasons to stop. -/
theorem stopAfter?_zero_of_affordable (affordable : budget ≠ some 0) :
    start.stopAfter? instructions budget 0 =
      start.stopAfter? instructions none 0 := by
  simp only [stopAfter?, iterate, stopReason?, affordable, reduceCtorEq]

/-- **Slicing.**  Without a budget a driver comes to its first stop in any
case.  With one it either comes to the same first stop, or it stops on the way
there, when it has executed as many instructions as it may. -/
theorem FirstStop.slice
    (first : FirstStop instructions none start count runEnd stopped)
    (limit : Nat) :
    FirstStop instructions (some limit) start count runEnd stopped ∨
      ∃ reached,
        limit ≤ count ∧
        FirstStop instructions (some limit) start limit .outOfBudget
          reached ∧
        FirstStop instructions none reached (count - limit) runEnd
          stopped := by
  induction limit generalizing start count with
  | zero =>
      by_cases finished : instructions.size ≤ start.pc
      · -- The end of the program is looked at before the budget.
        have stops : ∀ budget, start.stopAfter? instructions budget 0 =
            some (.finished, start) := by
          intro budget
          simp [stopAfter?, iterate, stopReason?, finished]
        obtain ⟨rfl, rfl, rfl⟩ := first.unique (FirstStop.zero (stops none))
        exact .inl (FirstStop.zero (stops (some 0)))
      · refine .inr ⟨start, Nat.zero_le count, FirstStop.zero ?_, first⟩
        simp [stopAfter?, iterate, stopReason?, finished]
  | succ limit inductionHypothesis =>
      have affordable : some (limit + 1) ≠ some 0 := by simp
      have sameBeginning : start.stopAfter? instructions (some (limit + 1)) 0 =
          start.stopAfter? instructions none 0 :=
        stopAfter?_zero_of_affordable affordable
      cases beginning instructions none start with
      | stop beginningEnd stops ends =>
          obtain ⟨rfl, rfl, rfl⟩ := first.unique (FirstStop.zero stops)
          exact .inl (FirstStop.zero (sameBeginning.trans stops))
      | pause next executed _ goesOn ends =>
          obtain ⟨rfl, rfl, rfl⟩ :=
            first.unique (FirstStop.one_of_pause goesOn executed)
          exact .inl (FirstStop.one_of_pause (sameBeginning.trans goesOn)
            executed)
      | proceed next executed unlimited goesOn continues =>
          have shift := fun count runEnd stopped =>
            @firstStop_succ_iff instructions (some (limit + 1)) start next
              stopped runEnd count affordable (sameBeginning.trans goesOn)
              executed
          cases count with
          | zero =>
              rw [first.stops] at goesOn
              contradiction
          | succ count =>
              rcases inductionHypothesis ((firstStop_succ_iff unlimited goesOn
                  executed).mp first) with same | ⟨reached, le, used, rest⟩
              · exact .inl ((shift _ _ _).mpr same)
              · refine .inr ⟨reached, Nat.succ_le_succ le,
                  (shift _ _ _).mpr used, ?_⟩
                rw [Nat.add_sub_add_right]
                exact rest

/-- Where the driver was not told to pause, it does not. -/
theorem ne_paused_of_stopReason? {machine : Machine}
    (reason : machine.stopReason? instructions budget count .proceed =
      some runEnd) : runEnd ≠ .paused := by
  rintro rfl
  cases stopsFor_of_stopReason? reason with
  | paused told => contradiction

theorem finished_of_stopReason? {outcome : Outcome} {machine : Machine}
    (reason : machine.stopReason? instructions budget count outcome =
      some .finished) : instructions.size ≤ machine.pc := by
  cases stopsFor_of_stopReason? reason with
  | finished past => exact past

/-- A driver stops for an error only where the next instruction fails. -/
theorem failed_of_stopReason? {outcome : Outcome} {machine : Machine}
    {executionError : ExecutionError}
    (reason : machine.stopReason? instructions budget count outcome =
      some (.failed executionError)) :
    machine.pc < instructions.size ∧
      ∃ stopped,
        machine.execute instructions = .error executionError stopped := by
  cases stopsFor_of_stopReason? reason with
  | failed inside fails => exact ⟨inside, _, fails⟩

theorem iterate_succ_eq_some {outcome : Outcome} {reached : Machine}
    (iterates : start.iterate instructions (count + 1) =
      some (outcome, reached)) :
    ∃ told before,
      start.iterate instructions count = some (told, before) ∧
      before.execute instructions = .ok outcome reached := by
  rw [iterate] at iterates
  cases earlier : start.iterate instructions count with
  | none =>
      rw [earlier] at iterates
      contradiction
  | some pair =>
      rcases pair with ⟨told, before⟩
      simp only [earlier] at iterates
      cases executed : before.execute instructions with
      | error executionError left =>
          rw [executed] at iterates
          contradiction
      | ok outcome next =>
          rw [executed] at iterates
          cases iterates
          exact ⟨told, before, rfl, executed⟩

/-- What holds at the start and is kept by every instruction holds of every
machine that is reached, with the number of instructions counted along. -/
theorem iterate_induction {motive : Nat → Machine → Prop}
    (holds : motive 0 start)
    (kept : ∀ count machine outcome next, motive count machine →
      machine.execute instructions = .ok outcome next →
      motive (count + 1) next)
    {outcome : Outcome} {reached : Machine}
    (iterates : start.iterate instructions count = some (outcome, reached)) :
    motive count reached := by
  induction count generalizing outcome reached with
  | zero =>
      cases iterates
      exact holds
  | succ count inductionHypothesis =>
      obtain ⟨told, before, earlier, executed⟩ :=
        iterate_succ_eq_some iterates
      exact kept count before outcome reached
        (inductionHypothesis earlier) executed

theorem retired_of_iterate {outcome : Outcome} {reached : Machine}
    (iterates : start.iterate instructions count = some (outcome, reached)) :
    reached.statistics.retired = start.statistics.retired + count := by
  apply iterate_induction (motive := fun count machine =>
    machine.statistics.retired = start.statistics.retired + count) rfl _
    iterates
  intro count machine outcome next counted executed
  rw [execute_retired executed, counted, Nat.add_assoc]

theorem memory_size_of_run
    (ran : run instructions fuel budget start = some (runEnd, stopped)) :
    stopped.memory.size = start.memory.size := by
  obtain ⟨count, first⟩ := firstStop_of_run ran
  obtain ⟨outcome, iterates, _⟩ := first.iterate_eq
  apply iterate_induction (motive := fun _ machine =>
    machine.memory.size = start.memory.size) rfl _ iterates
  intro count machine outcome next sameSize executed
  rw [execute_memory_size executed, sameSize]

end MiniMips.Machine
