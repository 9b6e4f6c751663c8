import MiniMips.Proofs.Machine.Bytes
import Mathlib.Data.List.Induction

/-!
Contract: byte access and word access to a memory.

Owns:
- when an access is refused and why, told in integers;
- that a word is read as the number that its four bytes make up, and written as
  four bytes;
- what every byte of a memory is after any accesses to a new one.

The bytes of a memory are found here from the accesses alone: from the ranges
that were written to, and not from any memory in between.
-/

namespace MiniMips

/-- The byte of a word at a place, counted from the least significant one. -/
def byteOfWord (word : Int32) (place : Nat) : UInt8 :=
  UInt8.ofNat (word.toUInt32.toNat / 256 ^ place)

inductive MemoryAccess where
  | readByte (address : Int)
  | readWord (address : Int)
  | writeByte (address : Int) (value : UInt8)
  | writeWord (address : Int) (word : Int32)

/-- What an access to a memory of `size` bytes writes at an index, if it writes
anything there.  An access that is refused writes nothing. -/
def MemoryAccess.written? (size index : Nat) : MemoryAccess → Option UInt8
  | .readByte _ | .readWord _ => none
  | .writeByte address value =>
      if address = index ∧ index < size then some value else none
  | .writeWord address word =>
      if ((0 ≤ address ∧ address + 4 ≤ size) ∧ (4 : Int) ∣ address) ∧
          address ≤ index ∧ index < address + 4 then
        some (byteOfWord word (index - address).toNat)
      else
        none

/-- What accesses have written last at an index. -/
def lastWritten? (size index : Nat) (accesses : List MemoryAccess) :
    Option UInt8 :=
  accesses.reverse.findSome? (MemoryAccess.written? size index)

namespace Memory

/-- The memory after an access.  One that is refused leaves it as it was. -/
def after (memory : Memory) : MemoryAccess → Memory
  | .readByte _ | .readWord _ => memory
  | .writeByte address value =>
      match memory.writeByte address value with
      | .ok written => written
      | .error _ => memory
  | .writeWord address word =>
      match memory.writeWord address word with
      | .ok written => written
      | .error _ => memory

/-- The memory after accesses, in the order of the list. -/
def afterAll (memory : Memory) (accesses : List MemoryAccess) : Memory :=
  accesses.foldl after memory

/-- What comes of an access of `width` bytes at an address: it is out of bounds
where some byte is, else misaligned where the address is no multiple of the
width, and succeeds otherwise. -/
structure AccessRule {α : Type} (memory : Memory) (address : Int)
    (width : Nat) (result : Except AccessFault α) : Prop where
  outOfBounds : result = .error .outOfBounds ↔
    address < 0 ∨ memory.size < address + width
  misaligned : result = .error .misaligned ↔
    (0 ≤ address ∧ address + width ≤ memory.size) ∧ ¬(width : Int) ∣ address
  succeeds : (∃ value, result = .ok value) ↔
    (0 ≤ address ∧ address + width ≤ memory.size) ∧ (width : Int) ∣ address

variable {memory written : Memory} {index start width count : Nat}
  {address : Int} {word : Int32} {value : UInt8}

/-! ## When an access is refused -/

/-- What succeeds wherever it is located follows the rule. -/
theorem accessRule_of_locate {α : Type} {answer : Nat → α} (some : 0 < width) :
    AccessRule memory address width
      (match memory.locate address width with
        | .error fault => .error fault
        | .ok start => .ok (answer start)) := by
  have single : ¬1 < width → (width : Int) ∣ address := by
    intro narrow
    have one : width = 1 := by omega
    rw [one]
    exact one_dvd address
  rw [locate_eq]
  by_cases outside : address < 0 ∨ (memory.size : Int) < address + width
  · have noRoom : ¬(0 ≤ address ∧ address + width ≤ memory.size) := by omega
    rw [if_pos outside]
    constructor <;> simp [outside, noRoom]
  · have room : 0 ≤ address ∧ address + width ≤ memory.size := by omega
    rw [if_neg outside]
    by_cases aligned : (width : Int) ∣ address
    · rw [if_neg (fun wide => wide.2 aligned)]
      constructor <;> simp [outside, room, aligned]
    · have wide : 1 < width := by
        by_contra narrow
        exact aligned (single narrow)
      rw [if_pos ⟨wide, aligned⟩]
      constructor <;> simp [outside, room, aligned]

theorem accessRule_readByte (memory : Memory) (address : Int) :
    AccessRule memory address 1 (memory.readByte address) :=
  accessRule_of_locate Nat.one_pos

theorem accessRule_writeByte (memory : Memory) (address : Int)
    (value : UInt8) :
    AccessRule memory address 1 (memory.writeByte address value) :=
  accessRule_of_locate Nat.one_pos

theorem accessRule_readWord (memory : Memory) (address : Int) :
    AccessRule memory address 4 (memory.readWord address) :=
  accessRule_of_locate (by decide)

theorem accessRule_writeWord (memory : Memory) (address : Int)
    (word : Int32) :
    AccessRule memory address 4 (memory.writeWord address word) :=
  accessRule_of_locate (by decide)

/-! ## Bytes and words -/

theorem locate_one (inside : index < memory.size) :
    memory.locate (index : Int) 1 = .ok index := by
  rw [locate_eq, if_neg (by omega), if_neg (by omega), Int.toNat_natCast]

theorem readByte_of_inside (inside : index < memory.size) :
    memory.readByte (index : Int) = .ok (memory.byteAt index) := by
  rw [readByte, locate_one inside]

theorem writeByte_of_inside (inside : index < memory.size) (value : UInt8) :
    memory.writeByte (index : Int) value = .ok (memory.setByte index value) := by
  rw [writeByte, locate_one inside]
  rfl

theorem bytesOfWord_eq (word : Int32) :
    bytesOfWord word = (List.range 4).map (byteOfWord word) := by
  refine List.ext_getElem (by simp [bytesOfWord, wordWidth,
    length_bytesOfValue]) fun place inside _ => ?_
  rw [List.getElem_map, List.getElem_range]
  exact getElem_bytesOfValue inside

theorem setBytes_concat (memory : Memory) (start : Nat) (values : List UInt8)
    (value : UInt8) :
    memory.setBytes start (values ++ [value]) =
      (memory.setBytes start values).setByte (start + values.length) value := by
  induction values generalizing memory start with
  | nil => rfl
  | cons first values inductionHypothesis =>
      rw [List.cons_append, setBytes, setBytes, inductionHypothesis,
        List.length_cons, Nat.add_right_comm, ← Nat.add_assoc]

/-- Bytes that are written one after the other are written together. -/
theorem foldlM_writeByte (byte : Nat → UInt8)
    (within : start + count ≤ memory.size) :
    (List.range count).foldlM
        (fun (current : Memory) (place : Nat) =>
          current.writeByte ((start : Int) + place) (byte place)) memory =
      .ok (memory.setBytes start ((List.range count).map byte)) := by
  induction count with
  | zero => rfl
  | succ count inductionHypothesis =>
      have inside : start + count <
          (memory.setBytes start ((List.range count).map byte)).size := by
        rw [size_setBytes]
        omega
      have last := writeByte_of_inside inside (byte count)
      rw [Nat.cast_add] at last
      rw [List.range_succ, List.foldlM_append, inductionHypothesis (by omega),
        List.map_append, List.map_singleton, setBytes_concat, List.length_map,
        List.length_range, ← bind_pure ((Except.ok _ : Except _ Memory))]
      exact congrArg (· >>= pure) last

/-- A word that is read is the number of the bytes that are read in its
place. -/
theorem bytes_of_readWord (reads : memory.readWord address = .ok word) :
    ∃ byte : Nat → UInt8,
      (∀ place : Nat, place < 4 →
        memory.readByte (address + place) = .ok (byte place)) ∧
      word.toUInt32.toNat =
        ∑ place ∈ Finset.range 4, 256 ^ place * (byte place).toNat := by
  unfold readWord at reads
  split at reads
  next => contradiction
  next start located =>
    obtain ⟨rfl, within⟩ := eq_of_locate located
    have four : wordWidth = 4 := rfl
    have bound := valueOfBytes_lt (memory.bytesFrom start wordWidth)
    rw [length_bytesFrom] at bound
    cases reads
    refine ⟨fun place => memory.byteAt (start + place), ?_, ?_⟩
    · intro place small
      have inside : start + place < memory.size := by omega
      exact readByte_of_inside inside
    · rw [UInt32.toUInt32_toInt32, UInt32.toNat_ofNat_of_lt' bound,
        valueOfBytes_bytesFrom]
      rfl

/-- A word is written as its four bytes, the least significant first. -/
theorem bytes_of_writeWord
    (writes : memory.writeWord address word = .ok written) :
    (List.range 4).foldlM
        (fun (current : Memory) (place : Nat) =>
          current.writeByte (address + place) (byteOfWord word place)) memory =
      .ok written := by
  unfold writeWord at writes
  split at writes
  next => contradiction
  next start located =>
    obtain ⟨rfl, within⟩ := eq_of_locate located
    cases writes
    rw [bytesOfWord_eq]
    exact foldlM_writeByte (byteOfWord word) within

/-! ## Accesses one after the other -/

/-- The memory after bytes are written where an access is located. -/
def afterBytes (memory : Memory) (address : Int) (values : List UInt8) :
    Memory :=
  match memory.locate address values.length with
  | .error _ => memory
  | .ok start => memory.setBytes start values

theorem after_writeByte (memory : Memory) (address : Int) (value : UInt8) :
    memory.after (.writeByte address value) =
      memory.afterBytes address [value] := by
  simp only [after, writeByte, afterBytes, List.length_singleton]
  cases memory.locate address 1 <;> rfl

theorem after_writeWord (memory : Memory) (address : Int) (word : Int32) :
    memory.after (.writeWord address word) =
      memory.afterBytes address (bytesOfWord word) := by
  have four : (bytesOfWord word).length = wordWidth := length_bytesOfValue _ _
  simp only [after, writeWord, afterBytes, four]
  cases memory.locate address wordWidth <;> rfl

theorem size_afterBytes (memory : Memory) (address : Int)
    (values : List UInt8) :
    (memory.afterBytes address values).size = memory.size := by
  unfold afterBytes
  cases memory.locate address values.length with
  | error fault => rfl
  | ok start => exact size_setBytes _ _ _

theorem size_after (memory : Memory) (access : MemoryAccess) :
    (memory.after access).size = memory.size := by
  cases access with
  | readByte address | readWord address => rfl
  | writeByte address value =>
      rw [after_writeByte, size_afterBytes]
  | writeWord address word =>
      rw [after_writeWord, size_afterBytes]

/-- Bytes are written where the access is allowed, and nowhere else. -/
theorem byteAt_afterBytes (memory : Memory) (address : Int) (index : Nat)
    {values : List UInt8} (some : 0 < values.length) :
    (memory.afterBytes address values).byteAt index =
      if ((0 ≤ address ∧ address + values.length ≤ memory.size) ∧
            (values.length : Int) ∣ address) ∧
          address ≤ index ∧ index < address + values.length then
        values[(index - address).toNat]?.getD 0
      else
        memory.byteAt index := by
  have rule := (@accessRule_of_locate memory _ address Nat id some).succeeds
  unfold afterBytes
  cases located : memory.locate address values.length with
  | error fault =>
      rw [located] at rule
      rw [if_neg ?_]
      rintro ⟨allowed, _⟩
      obtain ⟨_, impossible⟩ := rule.mpr allowed
      contradiction
  | ok start =>
      rw [located] at rule
      have allowed := rule.mp ⟨_, rfl⟩
      obtain ⟨rfl, within⟩ := eq_of_locate located
      by_cases covered : (start : Int) ≤ index ∧
          (index : Int) < start + values.length
      · rw [if_pos ⟨allowed, covered⟩]
        obtain ⟨place, rfl⟩ :=
          Nat.exists_eq_add_of_le (Int.ofNat_le.mp covered.1)
        have small : place < values.length := by omega
        have offset : ((start + place : Nat) - (start : Int)).toNat =
            place := by
          omega
        rw [offset, List.getElem?_eq_getElem small]
        exact byteAt_setBytes_of_inside within small
      · rw [if_neg (fun both => covered both.2)]
        exact byteAt_setBytes_of_outside memory (by omega)

/-- One access writes where its range says, and leaves every other byte. -/
theorem byteAt_after (access : MemoryAccess) (inside : index < memory.size) :
    (memory.after access).byteAt index =
      (access.written? memory.size index).getD (memory.byteAt index) := by
  cases access with
  | readByte address | readWord address => rfl
  | writeByte address value =>
      have one : 0 < [value].length := Nat.one_pos
      rw [after_writeByte, byteAt_afterBytes _ _ _ one, MemoryAccess.written?]
      by_cases here : address = index
      · subst here
        have covered : 0 ≤ (index : Int) ∧ (index : Int) + 1 ≤ memory.size := by
          omega
        simp [inside, covered]
      · have uncovered : ¬(address ≤ index ∧
            (index : Int) < address + [value].length) := by
          rw [List.length_singleton]
          omega
        rw [if_neg (fun both => uncovered both.2),
          if_neg (fun both => here both.1)]
        rfl
  | writeWord address word =>
      have four : (bytesOfWord word).length = 4 := length_bytesOfValue _ _
      rw [after_writeWord, byteAt_afterBytes _ _ _ (four ▸ by decide), four,
        Nat.cast_ofNat, MemoryAccess.written?]
      by_cases covered :
          ((0 ≤ address ∧ address + 4 ≤ memory.size) ∧ (4 : Int) ∣ address) ∧
            address ≤ index ∧ index < address + 4
      · have small : (index - address).toNat < (bytesOfWord word).length := by
          omega
        rw [if_pos covered, if_pos covered, List.getElem?_eq_getElem small]
        exact getElem_bytesOfValue small
      · rw [if_neg covered, if_neg covered]
        rfl

/-- After any accesses every byte is what was written to it last. -/
theorem afterAll_spec (memory : Memory) (accesses : List MemoryAccess) :
    (memory.afterAll accesses).size = memory.size ∧
      ∀ index < memory.size, (memory.afterAll accesses).byteAt index =
        (lastWritten? memory.size index accesses).getD
          (memory.byteAt index) := by
  induction accesses using List.reverseRecOn with
  | nil => exact ⟨rfl, fun _ _ => rfl⟩
  | append_singleton accesses access inductionHypothesis =>
      obtain ⟨size, bytes⟩ := inductionHypothesis
      have concat : memory.afterAll (accesses ++ [access]) =
          (memory.afterAll accesses).after access :=
        List.foldl_concat _ _ _ _
      rw [concat, size_after]
      refine ⟨size, fun index inside => ?_⟩
      rw [byteAt_after access (size ▸ inside), size, bytes index inside,
        lastWritten?, lastWritten?, List.reverse_append, List.reverse_singleton,
        List.singleton_append, List.findSome?_cons]
      cases access.written? memory.size index <;> rfl

/-- **Bytes and words.**  An access is refused exactly where it leaves the
memory or a word is not aligned.  A word is read as the number that its bytes
make up, and written as its bytes.  After any accesses to a new memory every
byte is what was written to it last, or zero. -/
theorem bytes_and_words_agree (memory : Memory) (address : Int) (size : Nat)
    (accesses : List MemoryAccess) :
    (AccessRule memory address 1 (memory.readByte address) ∧
      (∀ value,
        AccessRule memory address 1 (memory.writeByte address value)) ∧
      AccessRule memory address 4 (memory.readWord address) ∧
      ∀ word, AccessRule memory address 4 (memory.writeWord address word)) ∧
    (∀ word, memory.readWord address = .ok word →
      ∃ byte : Nat → UInt8,
        (∀ place : Nat, place < 4 →
          memory.readByte (address + place) = .ok (byte place)) ∧
        word.toUInt32.toNat =
          ∑ place ∈ Finset.range 4, 256 ^ place * (byte place).toNat) ∧
    (∀ word written, memory.writeWord address word = .ok written →
      (List.range 4).foldlM
          (fun (current : Memory) (place : Nat) =>
            current.writeByte (address + place) (byteOfWord word place))
          memory =
        .ok written) ∧
    ((zeroed size).afterAll accesses).size = size ∧
    ∀ index < size, ((zeroed size).afterAll accesses).readByte index =
      .ok ((lastWritten? size index accesses).getD 0) := by
  obtain ⟨sizeAfter, bytesAfter⟩ := afterAll_spec (zeroed size) accesses
  rw [size_zeroed] at sizeAfter bytesAfter
  refine ⟨⟨accessRule_readByte memory address,
    accessRule_writeByte memory address, accessRule_readWord memory address,
    accessRule_writeWord memory address⟩, fun _ => bytes_of_readWord,
    fun _ _ => bytes_of_writeWord, sizeAfter, ?_⟩
  intro index inside
  have insideAfter : index < ((zeroed size).afterAll accesses).size := by
    rw [sizeAfter]
    exact inside
  rw [readByte_of_inside insideAfter, bytesAfter index inside, byteAt_zeroed]

/-- A word with a byte written over it, and two writes that are refused: one is
not aligned and one is out of bounds. -/
theorem bytes_and_words_agree_overlapping :
    let accesses : List MemoryAccess :=
      [.writeWord 4 (-2), .writeByte 5 7, .writeWord 6 0, .writeByte 8 1]
    let memory := (zeroed 8).afterAll accesses
    memory.readByte 3 = .ok 0 ∧ memory.readByte 5 = .ok 7 ∧
      ∃ word, memory.readWord 4 = .ok word ∧
        word.toUInt32.toNat = 0xffff07fe := by
  intro accesses memory
  obtain ⟨⟨_, _, rule, _⟩, words, _, size, bytes⟩ :=
    bytes_and_words_agree memory 4 8 accesses
  have readable : 0 ≤ (4 : Int) ∧ (4 : Int) + (4 : Nat) ≤ memory.size := by
    rw [size]
    decide
  obtain ⟨word, reads⟩ := rule.succeeds.mpr ⟨readable, by decide⟩
  obtain ⟨byte, single, whole⟩ := words word reads
  have first := (single 0 (by decide)).symm.trans (bytes 4 (by decide))
  have second := (single 1 (by decide)).symm.trans (bytes 5 (by decide))
  have third := (single 2 (by decide)).symm.trans (bytes 6 (by decide))
  have fourth := (single 3 (by decide)).symm.trans (bytes 7 (by decide))
  refine ⟨bytes 3 (by decide), bytes 5 (by decide), word, reads, ?_⟩
  rw [whole]
  simp only [Finset.sum_range_succ, Finset.sum_range_zero, Except.ok.inj first,
    Except.ok.inj second, Except.ok.inj third, Except.ok.inj fourth]
  decide

end Memory

end MiniMips
