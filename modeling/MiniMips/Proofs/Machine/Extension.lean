import MiniMips.Proofs.Machine.EffectParts
import MiniMips.Proofs.Machine.Footprint
import MiniMips.Proofs.Machine.Iteration

/-!
Contract: machines with bytes added behind their memory.

Owns:
- that an access which is not out of bounds is the same with the added bytes,
  and leaves them alone;
- that an instruction has the same effect on a machine with added bytes, or
  fails alike, unless it leaves the memory;
- that iterations and runs are the same with added bytes up to there.

No instruction looks at the size of the memory but to refuse an access.  A
refusal for the bounds comes before one for the alignment, so adding bytes can
only put the second in place of the first.
-/

namespace MiniMips

def Memory.extend (memory : Memory) (extra : ByteArray) : Memory where
  bytes := memory.bytes ++ extra

/-- The machine with bytes added behind its memory. -/
def Machine.withExtra (machine : Machine) (extra : ByteArray) : Machine :=
  { machine with memory := machine.memory.extend extra }

/-- Whether an instruction fails because it leaves the memory. -/
def ExecutionError.isOutOfBounds : ExecutionError → Bool
  | .fault _ (.memoryOutOfBounds _ _ _) => true
  | _ => false

/-- Bytes that lie within a memory. -/
def Effect.WritesWithin (effect : Effect) (memory : Memory) : Prop :=
  ∀ start bytes, effect.bytes? = some (start, bytes) →
    start + bytes.length ≤ memory.size

variable {memory : Memory} {index start width count : Nat} {address : Int}
  {machine next stopped : Machine} {instruction : Instruction}
  {effect : Effect} {instructions : Array Instruction}
  {outcome : Outcome} {executionError : ExecutionError}

/-! ## Memory -/

namespace Memory

/-- A larger memory is a smaller one with zeros added. -/
theorem zeroed_add (size more : Nat) :
    zeroed (size + more) = (zeroed size).extend (zeroBytes more) := by
  have bytes : zeroBytes (size + more) = zeroBytes size ++ zeroBytes more := by
    apply ByteArray.ext
    rw [ByteArray.data_append, data_zeroBytes, data_zeroBytes, data_zeroBytes,
      Array.replicate_append_replicate]
  exact congrArg Memory.mk bytes

theorem size_extend (memory : Memory) (extra : ByteArray) :
    (memory.extend extra).size = memory.size + extra.size :=
  ByteArray.size_append

theorem byteAt_extend (extra : ByteArray) (inside : index < memory.size) :
    (memory.extend extra).byteAt index = memory.byteAt index := by
  have insideToo : index < (memory.extend extra).bytes.size := by
    show index < (memory.extend extra).size
    rw [size_extend]
    omega
  unfold byteAt
  rw [dif_pos insideToo, dif_pos (show index < memory.bytes.size from inside)]
  exact ByteArray.getElem_append_left inside

theorem bytesFrom_extend (extra : ByteArray)
    (within : start + count ≤ memory.size) :
    (memory.extend extra).bytesFrom start count =
      memory.bytesFrom start count := by
  unfold bytesFrom
  refine List.map_congr_left fun offset member => ?_
  have bound := List.mem_range.mp member
  exact byteAt_extend extra (by omega)

theorem setByte_extend (extra : ByteArray) (value : UInt8)
    (inside : index < memory.size) :
    (memory.extend extra).setByte index value =
      (memory.setByte index value).extend extra := by
  have insideToo : index < (memory.bytes ++ extra).size := by
    rw [ByteArray.size_append]
    exact Nat.lt_add_right extra.size inside
  have insideBytes : index < memory.bytes.size := inside
  have written : (memory.bytes ++ extra).set index value insideToo =
      memory.bytes.set index value insideBytes ++ extra := by
    apply ByteArray.ext
    rw [ByteArray.data_append]
    show (memory.bytes ++ extra).data.set index value insideToo =
      memory.bytes.data.set index value insideBytes ++ extra.data
    simp only [ByteArray.data_append]
    exact Array.set_append_left insideBytes
  unfold extend setByte
  dsimp only
  rw [dif_pos insideToo, dif_pos insideBytes, written]

theorem setBytes_extend (extra : ByteArray) {values : List UInt8}
    (within : start + values.length ≤ memory.size) :
    (memory.extend extra).setBytes start values =
      (memory.setBytes start values).extend extra := by
  induction values generalizing memory start with
  | nil => rfl
  | cons value values inductionHypothesis =>
      rw [List.length_cons] at within
      rw [setBytes, setBytes, setByte_extend extra value (by omega),
        inductionHypothesis (by rw [size_setByte]; omega)]

/-- An access is located at the same place, unless it is out of bounds. -/
theorem locate_extend (extra : ByteArray)
    (inBounds : memory.locate address width ≠ .error .outOfBounds) :
    (memory.extend extra).locate address width =
      memory.locate address width := by
  cases address with
  | negSucc predecessor => exact absurd rfl inBounds
  | ofNat start =>
      unfold locate at inBounds ⊢
      dsimp only at inBounds ⊢
      by_cases outside : memory.size < start + width
      · rw [if_pos outside] at inBounds
        contradiction
      · have notOutside : ¬(memory.extend extra).size < start + width := by
          rw [size_extend]
          omega
        rw [if_neg outside, if_neg notOutside]

theorem readByte_extend (extra : ByteArray)
    (inBounds : memory.readByte address ≠ .error .outOfBounds) :
    (memory.extend extra).readByte address = memory.readByte address := by
  unfold readByte at inBounds ⊢
  have located : memory.locate address 1 ≠ .error .outOfBounds := by
    intro outside
    rw [outside] at inBounds
    contradiction
  rw [locate_extend extra located]
  cases place : memory.locate address 1 with
  | error fault => rfl
  | ok start =>
      exact congrArg Except.ok (byteAt_extend extra (eq_of_locate place).2)

theorem readWord_extend (extra : ByteArray)
    (inBounds : memory.readWord address ≠ .error .outOfBounds) :
    (memory.extend extra).readWord address = memory.readWord address := by
  unfold readWord at inBounds ⊢
  have located : memory.locate address wordWidth ≠ .error .outOfBounds := by
    intro outside
    rw [outside] at inBounds
    contradiction
  rw [locate_extend extra located]
  cases place : memory.locate address wordWidth with
  | error fault => rfl
  | ok start =>
      dsimp only
      rw [bytesFrom_extend extra (eq_of_locate place).2]

end Memory

theorem LoadKind.read_extend (kind : LoadKind) (extra : ByteArray)
    (inBounds : kind.read memory address ≠ .error .outOfBounds) :
    kind.read (memory.extend extra) address = kind.read memory address := by
  cases kind with
  | word => exact Memory.readWord_extend extra inBounds
  | signedByte | unsignedByte =>
      unfold read at inBounds ⊢
      have readable : memory.readByte address ≠ .error .outOfBounds := by
        intro outside
        rw [outside] at inBounds
        contradiction
      rw [Memory.readByte_extend extra readable]

/-! ## Instructions -/

/-- What an instruction does on a machine it does with added bytes too, unless
it leaves the memory. -/
theorem Instruction.effect_withExtra (extra : ByteArray)
    (inBounds : ∀ address width limit, instruction.effect machine ≠
      .error (.memoryOutOfBounds address width limit)) :
    instruction.effect (machine.withExtra extra) =
      instruction.effect machine := by
  unfold effect at inBounds ⊢
  cases invalid : instruction.invalidField? with
  | some field => rfl
  | none =>
      simp only [invalid] at inBounds ⊢
      unfold actionEffect at inBounds ⊢
      -- Only loads and stores look at the memory.
      cases acts : instruction.opcode.action with
      | load kind =>
          simp only [acts] at inBounds ⊢
          generalize contents : machine.registers.read
            (registerOfField instruction.rs) = first at inBounds
          have readable : kind.read machine.memory
              (first.toInt + instruction.immediate.toInt) ≠
                .error .outOfBounds := by
            intro outside
            simp only [outside] at inBounds
            exact inBounds _ _ _ rfl
          simp only [Machine.withExtra, contents,
            kind.read_extend extra readable]
          cases reads : kind.read machine.memory
              (first.toInt + instruction.immediate.toInt) with
          | ok value => rfl
          | error fault =>
              cases fault with
              | outOfBounds => exact absurd reads readable
              | misaligned => rfl
      | store kind =>
          simp only [acts] at inBounds ⊢
          generalize contents : machine.registers.read
            (registerOfField instruction.rs) = first at inBounds
          have located : machine.memory.locate
              (first.toInt + instruction.immediate.toInt) kind.width ≠
                .error .outOfBounds := by
            intro outside
            simp only [outside] at inBounds
            exact inBounds _ _ _ rfl
          simp only [Machine.withExtra, contents,
            Memory.locate_extend extra located]
          cases place : machine.memory.locate
              (first.toInt + instruction.immediate.toInt) kind.width with
          | ok start => rfl
          | error fault =>
              cases fault with
              | outOfBounds => exact absurd place located
              | misaligned => rfl
      | _ => rfl

/-- An effect writes to the memory that it was found for. -/
theorem Instruction.writesWithin_of_effect
    (effects : instruction.effect machine = .ok effect) :
    effect.WritesWithin machine.memory := by
  obtain ⟨_, made⟩ := madeBy_of_effect effects
  intro start bytes written
  rw [made.bytes?] at written
  cases acts : instruction.opcode.action with
  | store kind =>
      rw [acts] at written
      obtain ⟨place, located⟩ := made.located kind acts
      obtain ⟨address, within⟩ := Memory.eq_of_locate located
      cases written
      rw [StoreKind.bytes, length_bytesOfValue, address, Int.toNat_natCast]
      exact within
  | _ => simp [acts, storedBytes?] at written

theorem Machine.apply_withExtra (extra : ByteArray) (opcode : Opcode)
    (within : effect.WritesWithin machine.memory) :
    (machine.withExtra extra).apply opcode effect =
      (machine.apply opcode effect).withExtra extra := by
  unfold withExtra apply
  cases written : effect.bytes? with
  | none => rfl
  | some place =>
      rcases place with ⟨start, bytes⟩
      have kept := Memory.setBytes_extend extra (within start bytes written)
      dsimp only
      rw [kept]

namespace Machine

theorem execute_withExtra_of_ok (extra : ByteArray)
    (executed : machine.execute instructions = .ok outcome next) :
    (machine.withExtra extra).execute instructions =
      .ok outcome (next.withExtra extra) := by
  obtain ⟨instruction, effect, present, effects, rfl, rfl⟩ :=
    execute_eq_ok_iff_effect.mp executed
  refine execute_eq_ok_iff_effect.mpr
    ⟨instruction, effect, present, ?_, rfl, ?_⟩
  · rw [instruction.effect_withExtra extra (by simp [effects]), effects]
  · exact (apply_withExtra extra instruction.opcode
      (Instruction.writesWithin_of_effect effects)).symm

theorem execute_withExtra_of_error (extra : ByteArray)
    (failed : machine.execute instructions = .error executionError stopped)
    (inBounds : executionError.isOutOfBounds = false) :
    (machine.withExtra extra).execute instructions =
      .error executionError (machine.withExtra extra) := by
  obtain ⟨_, causes⟩ := execute_eq_error_iff_effect.mp failed
  refine execute_eq_error_iff_effect.mpr ⟨rfl, ?_⟩
  rcases causes with absent | ⟨instruction, fault, present, faults, rfl⟩
  · exact .inl absent
  · refine .inr ⟨instruction, fault, present, ?_, rfl⟩
    rw [instruction.effect_withExtra extra, faults]
    intro address width limit outside
    cases faults.symm.trans outside
    contradiction

/-! ## Runs -/

theorem iterate_withExtra (extra : ByteArray) {start reached : Machine}
    (iterates : start.iterate instructions count = some (outcome, reached)) :
    (start.withExtra extra).iterate instructions count =
      some (outcome, reached.withExtra extra) := by
  induction count generalizing outcome reached with
  | zero =>
      cases iterates
      rfl
  | succ count inductionHypothesis =>
      obtain ⟨told, before, earlier, executed⟩ :=
        iterate_succ_eq_some iterates
      rw [iterate, inductionHypothesis earlier]
      simp only [execute_withExtra_of_ok extra executed]

theorem run_withExtra (extra : ByteArray) {fuel : Nat} {budget : Option Nat}
    {start : Machine} {runEnd : RunEnd}
    (ran : run instructions fuel budget start = some (runEnd, stopped))
    (inBounds : ∀ executionError, runEnd = .failed executionError →
      executionError.isOutOfBounds = false) :
    run instructions fuel budget (start.withExtra extra) =
      some (runEnd, stopped.withExtra extra) := by
  induction fuel generalizing budget start with
  | zero => cases ran
  | succ fuel inductionHypothesis =>
      rw [run] at ran ⊢
      by_cases past : instructions.size ≤ start.pc
      · rw [if_pos past] at ran
        cases ran
        exact if_pos past
      by_cases exhausted : budget = some 0
      · rw [if_neg past, if_pos exhausted] at ran
        cases ran
        exact (if_neg past).trans (if_pos exhausted)
      have sameRun : (start.withExtra extra).pc = start.pc := rfl
      rw [if_neg past, if_neg exhausted] at ran
      rw [sameRun, if_neg past, if_neg exhausted]
      cases executed : start.execute instructions with
      | error executionError left =>
          rw [executed] at ran
          cases ran
          obtain ⟨_, unchanged⟩ := execute_eq_error_iff.mp executed
          rw [execute_withExtra_of_error extra executed (inBounds _ rfl),
            unchanged]
      | ok outcome next =>
          rw [executed] at ran
          rw [execute_withExtra_of_ok extra executed]
          cases outcome with
          | pause =>
              cases ran
              rfl
          | proceed => exact inductionHypothesis ran

end Machine

end MiniMips
