import MiniMips.Machine.Memory
import Mathlib.Algebra.BigOperators.Intervals
import Mathlib.Algebra.BigOperators.Ring.Finset

/-!
Contract: the bytes of a memory.

Owns:
- numbers as bytes: the byte at each place of a number, and the number that
  bytes make up;
- where an access is located, told in integers;
- the byte at every index of a memory after a write, and of a new memory.
-/

namespace MiniMips

/-! ## Numbers as bytes -/

theorem length_bytesOfValue (count value : Nat) :
    (bytesOfValue count value).length = count := by
  induction count generalizing value with
  | zero => rfl
  | succ count inductionHypothesis =>
      rw [bytesOfValue, List.length_cons, inductionHypothesis]

theorem getElem_bytesOfValue {count value offset : Nat}
    (inside : offset < (bytesOfValue count value).length) :
    (bytesOfValue count value)[offset] = UInt8.ofNat (value / 256 ^ offset) := by
  induction count generalizing value offset with
  | zero => contradiction
  | succ count inductionHypothesis =>
      cases offset with
      | zero => simp [bytesOfValue]
      | succ offset =>
          simp only [bytesOfValue, List.getElem_cons_succ, inductionHypothesis,
            Nat.div_div_eq_div_mul, Nat.pow_succ']

theorem valueOfBytes_lt (bytes : List UInt8) :
    valueOfBytes bytes < 256 ^ bytes.length := by
  induction bytes with
  | nil => exact Nat.one_pos
  | cons byte bytes inductionHypothesis =>
      have small : byte.toNat < 256 := byte.toNat_lt
      rw [valueOfBytes, List.length_cons, Nat.pow_succ]
      omega

theorem data_zeroBytes (size : Nat) :
    (zeroBytes size).data = Array.replicate size 0 := by
  fun_induction zeroBytes size with
  | case1 => rfl
  | case2 size nonzero half even inductionHypothesis =>
      rw [ByteArray.data_append, inductionHypothesis,
        Array.replicate_append_replicate]
      congr 1
      omega
  | case3 size nonzero half odd inductionHypothesis =>
      have pushed : ((half ++ half).push 0).data =
          (half ++ half).data.push 0 := rfl
      rw [pushed, ByteArray.data_append, inductionHypothesis,
        Array.replicate_append_replicate, ← Array.replicate_succ]
      congr 1
      omega

namespace Memory

variable {memory : Memory} {index other start offset width : Nat}
  {address : Int} {values : List UInt8}

theorem length_bytesFrom (memory : Memory) (start count : Nat) :
    (memory.bytesFrom start count).length = count := by
  rw [bytesFrom, List.length_map, List.length_range]

/-- Consecutive bytes make up a number in which each counts for a power
of 256. -/
theorem valueOfBytes_bytesFrom (memory : Memory) (start count : Nat) :
    valueOfBytes (memory.bytesFrom start count) =
      ∑ offset ∈ Finset.range count,
        256 ^ offset * (memory.byteAt (start + offset)).toNat := by
  induction count generalizing start with
  | zero => rfl
  | succ count inductionHypothesis =>
      have first : memory.bytesFrom start (count + 1) =
          memory.byteAt start :: memory.bytesFrom (start + 1) count := by
        simp [bytesFrom, List.range_succ_eq_map, Function.comp_def,
          Nat.add_assoc, Nat.add_comm 1]
      rw [first, valueOfBytes, inductionHypothesis, Finset.sum_range_succ',
        Finset.mul_sum, Nat.add_comm]
      congr 1
      · refine Finset.sum_congr rfl fun offset _ => ?_
        rw [Nat.pow_succ', Nat.mul_assoc, Nat.add_assoc, Nat.add_comm 1]
      · rw [Nat.pow_zero, Nat.one_mul, Nat.add_zero]

/-! ## Where an access is located -/

theorem locate_eq (memory : Memory) (address : Int) (width : Nat) :
    memory.locate address width =
      if address < 0 ∨ (memory.size : Int) < address + width then
        .error .outOfBounds
      else if 1 < width ∧ ¬(width : Int) ∣ address then
        .error .misaligned
      else
        .ok address.toNat := by
  cases address with
  | negSucc predecessor =>
      rw [if_pos (.inl (Int.negSucc_lt_zero predecessor))]
      rfl
  | ofNat start =>
      have outside : (Int.ofNat start < 0 ∨
          (memory.size : Int) < Int.ofNat start + width) ↔
            memory.size < start + width := by
        simp only [Int.ofNat_eq_natCast]
        omega
      have unaligned : ¬(width : Int) ∣ Int.ofNat start ↔
          start % width ≠ 0 := by
        rw [Int.ofNat_eq_natCast, Int.natCast_dvd_natCast,
          Nat.dvd_iff_mod_eq_zero]
      simp only [outside, unaligned]
      rfl

/-- An access is located at its address, where it lies within the memory. -/
theorem eq_of_locate (located : memory.locate address width = .ok start) :
    address = start ∧ start + width ≤ memory.size := by
  rw [locate_eq] at located
  split at located
  next => contradiction
  next inside =>
    split at located
    next => contradiction
    next =>
      cases located
      omega

/-! ## Bytes after a write -/

theorem byteAt_setByte (value : UInt8) (inside : index < memory.size)
    (other : Nat) :
    (memory.setByte index value).byteAt other =
      if index = other then value else memory.byteAt other := by
  rcases memory with ⟨bytes⟩
  have within : index < bytes.size := inside
  have replaced : Memory.setByte ⟨bytes⟩ index value =
      ⟨bytes.set index value within⟩ := by
    unfold setByte
    dsimp only
    rw [dif_pos within]
  have size : (bytes.set index value within).size = bytes.size :=
    Array.size_set _
  rw [replaced]
  unfold byteAt
  dsimp only
  by_cases bound : other < bytes.size
  · have written : other < (bytes.set index value within).size :=
      size.symm ▸ bound
    rw [dif_pos written, dif_pos bound]
    exact Array.getElem_set within written
  · rw [dif_neg (size ▸ bound), dif_neg bound, if_neg (by omega)]

/-- A write outside the memory writes nothing. -/
theorem setByte_of_outside (value : UInt8) (outside : memory.size ≤ index) :
    memory.setByte index value = memory := by
  rcases memory with ⟨bytes⟩
  unfold setByte
  exact dif_neg (Nat.not_lt_of_le outside)

theorem byteAt_setByte_of_ne (memory : Memory) (value : UInt8)
    (different : index ≠ other) :
    (memory.setByte index value).byteAt other = memory.byteAt other := by
  by_cases inside : index < memory.size
  · rw [byteAt_setByte value inside, if_neg different]
  · rw [setByte_of_outside value (Nat.le_of_not_lt inside)]

/-- What lies beside the bytes that are written stays as it is. -/
theorem byteAt_setBytes_of_outside (memory : Memory)
    (outside : index < start ∨ start + values.length ≤ index) :
    (memory.setBytes start values).byteAt index = memory.byteAt index := by
  induction values generalizing memory start with
  | nil => rfl
  | cons value values inductionHypothesis =>
      rw [List.length_cons] at outside
      rw [setBytes, inductionHypothesis _ (by omega),
        byteAt_setByte_of_ne memory value (by omega)]

/-- The bytes that are written are read back. -/
theorem byteAt_setBytes_of_inside
    (within : start + values.length ≤ memory.size)
    (inside : offset < values.length) :
    (memory.setBytes start values).byteAt (start + offset) =
      values[offset] := by
  induction values generalizing memory start offset with
  | nil => contradiction
  | cons value values inductionHypothesis =>
      rw [List.length_cons] at within inside
      rw [setBytes]
      cases offset with
      | zero =>
          rw [byteAt_setBytes_of_outside _ (by omega),
            byteAt_setByte value (by omega), if_pos (Nat.add_zero start).symm]
          rfl
      | succ offset =>
          rw [← Nat.add_assoc, Nat.add_right_comm,
            inductionHypothesis (by rw [size_setByte]; omega) (by omega)]
          rfl

theorem byteAt_zeroed (size index : Nat) : (zeroed size).byteAt index = 0 := by
  unfold byteAt zeroed
  split
  next inside =>
    rw [ByteArray.getElem_eq_getElem_data]
    simp only [data_zeroBytes, Array.getElem_replicate]
  next => rfl

end Memory

end MiniMips
