import MiniMips.Machine.Alu
import Mathlib.Data.Int.ModEq

/-!
Contract: the operations of the unit in integer arithmetic.

Owns:
- a word as an unsigned number, and the one word that an integer wraps to;
- what each operation answers, told in integers and in bits;
- that the unit answers this and nothing else, and when it has no answer.

The answer of an operation is told without words wherever it can be: a word
that an integer wraps to is the only one that is congruent to it, so what is
said here determines the answer.
-/

namespace MiniMips

/-- A word as an unsigned number. -/
def unsignedValue (word : Int32) : Nat :=
  word.toUInt32.toNat

/-- The bit of a word at a place, counted from the least significant one. -/
def bitOfWord (word : Int32) (place : Nat) : Bool :=
  (unsignedValue word).testBit place

namespace Alu

/-- By how many places a word shifts. -/
def shiftDistance (word : Int32) : Nat :=
  unsignedValue word % 32

/-- What a word has to be to be the answer of an operation.  Quotients of
signed numbers are cut off toward zero, and shifts of signed numbers to the
right are rounded down. -/
def Answers (operation : AluOperation) (left right word : Int32) : Prop :=
  match operation with
  | .add => word.toInt ≡ left.toInt + right.toInt [ZMOD 2 ^ 32]
  | .sub => word.toInt ≡ left.toInt - right.toInt [ZMOD 2 ^ 32]
  | .mul => word.toInt ≡ left.toInt * right.toInt [ZMOD 2 ^ 32]
  | .div =>
      right ≠ 0 ∧ word.toInt ≡ left.toInt.tdiv right.toInt [ZMOD 2 ^ 32]
  | .divu =>
      right ≠ 0 ∧ unsignedValue word = unsignedValue left / unsignedValue right
  | .and => ∀ place < 32,
      bitOfWord word place = (bitOfWord left place && bitOfWord right place)
  | .or => ∀ place < 32,
      bitOfWord word place = (bitOfWord left place || bitOfWord right place)
  | .xor => ∀ place < 32,
      bitOfWord word place = (bitOfWord left place != bitOfWord right place)
  | .nor => ∀ place < 32,
      bitOfWord word place = !(bitOfWord left place || bitOfWord right place)
  | .slt => word = if left.toInt < right.toInt then 1 else 0
  | .sltu => word = if unsignedValue left < unsignedValue right then 1 else 0
  | .sll =>
      word.toInt ≡ left.toInt * 2 ^ shiftDistance right [ZMOD 2 ^ 32]
  | .srl =>
      unsignedValue word = unsignedValue left / 2 ^ shiftDistance right
  | .sra => word.toInt = left.toInt.fdiv (2 ^ shiftDistance right)

variable {left right word : Int32}

/-! ## Words -/

/-- An integer wraps to the only word that is congruent to it. -/
theorem modEq_iff (word : Int32) (value : Int) :
    word.toInt ≡ value [ZMOD 2 ^ 32] ↔ Int32.ofInt value = word := by
  rw [Int32.ofInt_eq_iff_bmod_eq_toInt]
  constructor
  · intro congruent
    have same : word.toInt % 2 ^ 32 = value % 2 ^ 32 := congruent
    calc value.bmod (2 ^ 32)
        = (value % 2 ^ 32).bmod (2 ^ 32) := (Int.emod_bmod value _).symm
      _ = (word.toInt % 2 ^ 32).bmod (2 ^ 32) := by rw [same]
      _ = word.toInt.bmod (2 ^ 32) := Int.emod_bmod word.toInt _
      _ = word.toInt := word.toInt_bmod
  · intro wraps
    rw [← wraps]
    exact Int.bmod_emod

theorem unsignedValue_inj :
    unsignedValue left = unsignedValue right ↔ left = right := by
  unfold unsignedValue
  rw [← Int32.toNat_toBitVec, ← Int32.toNat_toBitVec, BitVec.toNat_inj,
    Int32.toBitVec_inj]

theorem unsignedValue_toInt32 (word : UInt32) :
    unsignedValue word.toInt32 = word.toNat := by
  rw [unsignedValue, UInt32.toUInt32_toInt32]

theorem bitOfWord_eq (word : Int32) (place : Nat) :
    bitOfWord word place = word.toBitVec.getLsbD place := by
  rw [bitOfWord, unsignedValue, ← Int32.toNat_toBitVec, BitVec.testBit_toNat]

/-- A word is known by its bits. -/
theorem eq_iff_bitOfWord {answer : Int32} :
    answer = word ↔
      ∀ place < 32, bitOfWord word place = answer.toBitVec.getLsbD place := by
  simp only [bitOfWord_eq]
  constructor
  · rintro rfl place _
    rfl
  · intro same
    rw [← Int32.toBitVec_inj]
    exact (BitVec.eq_of_getLsbD_eq same).symm

/-! ## Shifts -/

theorem toNat_shiftAmount (word : Int32) :
    (shiftAmount word).toBitVec.toNat = shiftDistance word := by
  have low : (shiftAmount word).toBitVec = word.toBitVec &&& 31#32 :=
    Int32.toBitVec_and _ _
  rw [low, BitVec.toNat_and]
  exact Nat.and_two_pow_sub_one_eq_mod word.toBitVec.toNat 5

theorem shiftDistance_lt (word : Int32) : shiftDistance word < 32 :=
  Nat.mod_lt _ (by decide)

/-- A distance that is within a word is not reduced any further. -/
theorem smod_shiftAmount (word : Int32) :
    (shiftAmount word).toBitVec.smod 32 = (shiftAmount word).toBitVec := by
  have small : (shiftAmount word).toBitVec.toNat < 32 :=
    toNat_shiftAmount word ▸ shiftDistance_lt word
  have positive : (shiftAmount word).toBitVec.msb = false := by
    rw [BitVec.msb_eq_false_iff_two_mul_lt]
    omega
  rw [BitVec.smod_eq, positive]
  show (shiftAmount word).toBitVec.umod 32 = _
  apply BitVec.eq_of_toNat_eq
  rw [BitVec.umod_eq, BitVec.toNat_umod]
  exact Nat.mod_eq_of_lt small

theorem toInt_modEq_unsignedValue (word : Int32) :
    word.toInt ≡ unsignedValue word [ZMOD 2 ^ 32] := by
  have signed : word.toInt = (unsignedValue word : Int).bmod (2 ^ 32) :=
    BitVec.toInt_eq_toNat_bmod word.toBitVec
  rw [signed]
  exact Int.bmod_emod

theorem toInt_shiftLeft (left right : Int32) :
    (left <<< shiftAmount right).toInt ≡
      left.toInt * 2 ^ shiftDistance right [ZMOD 2 ^ 32] := by
  have shifted : (left <<< shiftAmount right).toInt =
      ((unsignedValue left * 2 ^ shiftDistance right : Nat) : Int).bmod
        (2 ^ 32) := by
    rw [← Int32.toInt_toBitVec, Int32.toBitVec_shiftLeft, smod_shiftAmount,
      BitVec.shiftLeft_eq', toNat_shiftAmount, BitVec.toInt_shiftLeft,
      Nat.shiftLeft_eq]
    rfl
  rw [shifted]
  refine Int.bmod_emod.trans ?_
  push_cast
  exact (toInt_modEq_unsignedValue left).symm.mul_right _

theorem unsignedValue_shiftRight (left right : Int32) :
    unsignedValue
        (left.toUInt32 >>> (shiftAmount right).toUInt32).toInt32 =
      unsignedValue left / 2 ^ shiftDistance right := by
  have distance : (shiftAmount right).toUInt32.toNat = shiftDistance right :=
    toNat_shiftAmount right
  rw [unsignedValue_toInt32, UInt32.toNat_shiftRight, distance,
    Nat.mod_eq_of_lt (shiftDistance_lt right), Nat.shiftRight_eq_div_pow]
  rfl

theorem toInt_shiftRight (left right : Int32) :
    (left >>> shiftAmount right).toInt =
      left.toInt.fdiv (2 ^ shiftDistance right) := by
  have positive : (0 : Int) ≤ 2 ^ shiftDistance right :=
    Int.pow_nonneg (by decide)
  rw [← Int32.toInt_toBitVec, Int32.toBitVec_shiftRight, smod_shiftAmount,
    BitVec.sshiftRight_eq', toNat_shiftAmount, BitVec.toInt_sshiftRight,
    Int.shiftRight_eq_div_pow, Int.fdiv_eq_ediv_of_nonneg _ positive]
  push_cast
  rfl

/-! ## Operations -/

theorem div_eq_ofInt (left right : Int32) :
    left / right = Int32.ofInt (left.toInt.tdiv right.toInt) := by
  rw [Int32.ofInt_tdiv left.minValue_le_toInt left.toInt_le
    right.minValue_le_toInt right.toInt_le, Int32.ofInt_toInt,
    Int32.ofInt_toInt]

theorem arithmetic_eq_some_iff {operation : AluOperation}
    (own : operation ∈ [AluOperation.add, .sub, .mul, .div, .divu]) :
    arithmetic operation left right = some word ↔
      Answers operation left right word := by
  simp only [List.mem_cons, List.not_mem_nil, or_false] at own
  rcases own with rfl | rfl | rfl | rfl | rfl
  · rw [Answers, modEq_iff, Int32.ofInt_add, Int32.ofInt_toInt,
      Int32.ofInt_toInt]
    exact Option.some_inj
  · rw [Answers, modEq_iff, Int32.ofInt_sub, Int32.ofInt_toInt,
      Int32.ofInt_toInt]
    exact Option.some_inj
  · rw [Answers, modEq_iff, Int32.ofInt_mul, Int32.ofInt_toInt,
      Int32.ofInt_toInt]
    exact Option.some_inj
  · rw [Answers, modEq_iff, ← div_eq_ofInt, arithmetic]
    by_cases zero : right = 0 <;> simp [zero]
  · have quotient : (left.toUInt32 / right.toUInt32).toInt32 = word ↔
        unsignedValue word = unsignedValue left / unsignedValue right := by
      rw [← unsignedValue_inj, unsignedValue_toInt32, UInt32.toNat_div]
      exact eq_comm
    rw [Answers, ← quotient, arithmetic]
    by_cases zero : right = 0 <;> simp [zero]

theorem truthWord_decide (condition : Prop) [Decidable condition] :
    truthWord (decide condition) = if condition then 1 else 0 := by
  unfold truthWord
  simp only [decide_eq_true_eq]

theorem logic_eq_iff {operation : AluOperation}
    (own : operation ∈ [AluOperation.and, .or, .xor, .nor, .slt, .sltu]) :
    logic operation left right = word ↔ Answers operation left right word := by
  simp only [List.mem_cons, List.not_mem_nil, or_false] at own
  rcases own with rfl | rfl | rfl | rfl | rfl | rfl
  · rw [Answers, eq_iff_bitOfWord]
    simp [logic, bitOfWord_eq]
  · rw [Answers, eq_iff_bitOfWord]
    simp [logic, bitOfWord_eq]
  · rw [Answers, eq_iff_bitOfWord]
    simp [logic, bitOfWord_eq]
  · rw [Answers, eq_iff_bitOfWord]
    refine forall₂_congr fun place inside => ?_
    simp [logic, bitOfWord_eq, inside]
  · rw [Answers, logic, truthWord_decide, eq_comm]
    simp only [Int32.lt_iff_toInt_lt]
  · rw [Answers, logic, truthWord_decide, eq_comm]
    simp only [UInt32.lt_iff_toNat_lt]
    rfl

theorem shift_eq_iff {operation : AluOperation}
    (own : operation ∈ [AluOperation.sll, .srl, .sra]) :
    shift operation left right = word ↔ Answers operation left right word := by
  simp only [List.mem_cons, List.not_mem_nil, or_false] at own
  rcases own with rfl | rfl | rfl
  · have wraps := (modEq_iff _ _).mp (toInt_shiftLeft left right)
    rw [Answers, modEq_iff, wraps]
    rfl
  · rw [Answers, ← unsignedValue_shiftRight, unsignedValue_inj, eq_comm]
    rfl
  · rw [Answers, ← toInt_shiftRight, Int32.toInt_inj, eq_comm]
    rfl

theorem execute_eq_none_iff (operation : AluOperation)
    (left right : Int32) :
    execute operation left right = none ↔
      (operation = .div ∨ operation = .divu) ∧ right = 0 := by
  cases operation <;> simp [execute, arithmetic]

theorem execute_eq_some_iff (operation : AluOperation) :
    execute operation left right = some word ↔
      Answers operation left right word := by
  unfold execute
  cases operation with
  | add | sub | mul | div | divu => exact arithmetic_eq_some_iff (by simp)
  | and | or | xor | nor | slt | sltu =>
      exact Option.some_inj.trans (logic_eq_iff (by simp))
  | sll | srl | sra => exact Option.some_inj.trans (shift_eq_iff (by simp))

/-- **Integer arithmetic.**  The unit has no answer exactly to a division by
zero, and else answers what the operation comes to on integers.  A group answers
zero to every operation that is not its own, so the last part says that no
operation is carried out by a group of others. -/
theorem execute_is_integer_arithmetic (operation : AluOperation) :
    (∀ left right, execute operation left right = none ↔
      (operation = .div ∨ operation = .divu) ∧ right = 0) ∧
    (∀ left right word, execute operation left right = some word ↔
      Answers operation left right word) ∧
    ∃ left right word, execute operation left right = some word ∧
      word ≠ 0 := by
  refine ⟨execute_eq_none_iff operation,
    fun left right word => execute_eq_some_iff operation, ?_⟩
  cases operation with
  | mul | div | divu | and | or => exact ⟨1, 1, 1, by decide, by decide⟩
  | add | sub | xor | sll | srl | sra => exact ⟨1, 0, 1, by decide, by decide⟩
  | slt | sltu => exact ⟨0, 1, 1, by decide, by decide⟩
  | nor => exact ⟨0, 0, -1, by decide, by decide⟩

/-- The only quotient that needs one bit more. -/
example : execute .div Int32.minValue (-1) = some Int32.minValue := rfl

end Alu

end MiniMips
