import MiniMips.Numeral

/-!
Contract: the data memory, a flat array of bytes.

Owns:
- the check of an access, which looks at its bounds before its alignment;
- byte access, and access to aligned little-endian words;
- the one-line summary of a memory.

Addresses are integers, because an effective address may be negative.  An
access that is refused changes nothing.
-/

namespace MiniMips

inductive AccessFault where
  /-- Some byte of the access lies outside the memory. -/
  | outOfBounds
  /-- The address of a word is no multiple of its width. -/
  | misaligned
deriving DecidableEq, Repr

/-- Value of bytes, the least significant of which comes first. -/
def valueOfBytes : List UInt8 → Nat
  | [] => 0
  | byte :: rest => byte.toNat + 256 * valueOfBytes rest

/-- The lowest `count` bytes of a value, the least significant first. -/
def bytesOfValue : (count : Nat) → (value : Nat) → List UInt8
  | 0, _ => []
  | count + 1, value => UInt8.ofNat value :: bytesOfValue count (value / 256)

/-- A row of zero bytes.  It is put together from halves, so that a large
memory is made in few steps. -/
def zeroBytes (size : Nat) : ByteArray :=
  if size = 0 then
    ByteArray.empty
  else
    let half := zeroBytes (size / 2)
    if size % 2 = 0 then half ++ half else (half ++ half).push 0
termination_by size

@[simp] theorem size_zeroBytes (size : Nat) : (zeroBytes size).size = size := by
  fun_induction zeroBytes size with
  | case1 => rfl
  | case2 size nonzero half even inductionHypothesis =>
      rw [ByteArray.size_append, inductionHypothesis]
      omega
  | case3 size nonzero half odd inductionHypothesis =>
      rw [ByteArray.size_push, ByteArray.size_append, inductionHypothesis]
      omega

structure Memory where
  bytes : ByteArray

namespace Memory

def wordWidth : Nat := 4

def zeroed (size : Nat) : Memory where
  bytes := zeroBytes size

def size (memory : Memory) : Nat :=
  memory.bytes.size

/-- The byte at an index; zero outside the memory. -/
def byteAt (memory : Memory) (index : Nat) : UInt8 :=
  if bound : index < memory.bytes.size then memory.bytes[index] else 0

/-- The bytes at `count` consecutive indices. -/
def bytesFrom (memory : Memory) (start count : Nat) : List UInt8 :=
  (List.range count).map (fun offset => memory.byteAt (start + offset))

/-- Replace the byte at an index; outside the memory nothing changes. -/
def setByte (memory : Memory) (index : Nat) (value : UInt8) : Memory :=
  match memory with
  | ⟨bytes⟩ =>
      if bound : index < bytes.size then ⟨bytes.set index value⟩ else ⟨bytes⟩

def setBytes (memory : Memory) (start : Nat) : List UInt8 → Memory
  | [] => memory
  | value :: rest => (memory.setByte start value).setBytes (start + 1) rest

@[simp] theorem size_zeroed (size : Nat) : (zeroed size).size = size :=
  size_zeroBytes size

@[simp] theorem size_setByte (memory : Memory) (index : Nat) (value : UInt8) :
    (memory.setByte index value).size = memory.size := by
  rcases memory with ⟨bytes⟩
  unfold setByte
  dsimp only
  split
  · exact Array.size_set _
  · rfl

@[simp] theorem size_setBytes (memory : Memory) (start : Nat)
    (values : List UInt8) :
    (memory.setBytes start values).size = memory.size := by
  induction values generalizing memory start with
  | nil => rfl
  | cons value rest inductionHypothesis =>
      rw [setBytes, inductionHypothesis, size_setByte]

/-- Where an access of `width` bytes begins.  An access must lie within the
memory, and one that is wider than a byte must begin at a multiple of its
width. -/
def locate (memory : Memory) (address : Int) (width : Nat) :
    Except AccessFault Nat :=
  match address with
  | .negSucc _ => .error .outOfBounds
  | .ofNat start =>
      if memory.size < start + width then
        .error .outOfBounds
      else if 1 < width ∧ start % width ≠ 0 then
        .error .misaligned
      else
        .ok start

def readByte (memory : Memory) (address : Int) : Except AccessFault UInt8 :=
  match memory.locate address 1 with
  | .error fault => .error fault
  | .ok start => .ok (memory.byteAt start)

def writeByte (memory : Memory) (address : Int) (value : UInt8) :
    Except AccessFault Memory :=
  match memory.locate address 1 with
  | .error fault => .error fault
  | .ok start => .ok (memory.setBytes start [value])

/-- The bytes of a word in memory order. -/
def bytesOfWord (word : Int32) : List UInt8 :=
  bytesOfValue wordWidth word.toUInt32.toNat

def readWord (memory : Memory) (address : Int) : Except AccessFault Int32 :=
  match memory.locate address wordWidth with
  | .error fault => .error fault
  | .ok start =>
      .ok (UInt32.ofNat (valueOfBytes (memory.bytesFrom start wordWidth))).toInt32

def writeWord (memory : Memory) (address : Int) (word : Int32) :
    Except AccessFault Memory :=
  match memory.locate address wordWidth with
  | .error fault => .error fault
  | .ok start => .ok (memory.setBytes start (bytesOfWord word))

def nonzeroCount (memory : Memory) : Nat :=
  memory.bytes.foldl (fun count byte => if byte = 0 then count else count + 1) 0

def summary (memory : Memory) : String :=
  "Memory \x7b size: " ++ Numeral.ofNat memory.size ++ ", nonzero_bytes: " ++
    Numeral.ofNat memory.nonzeroCount ++ " \x7d"

end Memory

end MiniMips
