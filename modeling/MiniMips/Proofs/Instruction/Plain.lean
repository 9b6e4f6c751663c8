import MiniMips.Instruction

/-!
Contract: what of an instruction its operation uses.

Owns:
- the range of register indices among the values of a register field;
- the plain form of an instruction, which holds the operands that its shape
  names and is blank everywhere else;
- instructions with the same operands, which have one plain form.

Does not own: that nothing but the plain form matters, which is a property of
each use of an instruction.
-/

namespace MiniMips

/-- Whether a register field is the index of a register. -/
def IsRegisterIndex (field : Int8) : Prop :=
  0 ≤ field.toInt ∧ field.toInt ≤ 31

instance (field : Int8) : Decidable (IsRegisterIndex field) := by
  unfold IsRegisterIndex
  infer_instance

theorem Register.ofField?_isNone_iff (field : Int8) :
    (ofField? field).isNone = true ↔ ¬IsRegisterIndex field := by
  unfold ofField? IsRegisterIndex
  cases field.toInt with
  | ofNat index =>
      unfold ofNat?
      by_cases inside : index < 32 <;> simp [inside] <;> omega
  | negSucc predecessor => simp

/-- A byte below thirty-two stays a register index when it is read as a signed
field. -/
theorem isRegisterIndex_toInt8 {index : UInt8} (inside : index < 32) :
    IsRegisterIndex index.toInt8 := by
  have bound : index.toNat < 32 := UInt8.lt_iff_toNat_lt.mp inside
  have same : index.toInt8.toInt = index.toNat := by
    rw [Int8.toInt, UInt8.toBitVec_toInt8]
    refine BitVec.toInt_eq_toNat_of_lt ?_
    have plain : index.toBitVec.toNat = index.toNat := rfl
    omega
  unfold IsRegisterIndex
  omega

namespace Instruction

/-- Whether every register field that the operation uses names a register. -/
def NamesRegisters (instruction : Instruction) : Prop :=
  ∀ field ∈ instruction.usedFields, IsRegisterIndex field

/-- Whether the register that an instruction holds in a slot exists.  A slot
that is not for a register asks for none. -/
def RegisterAt (instruction : Instruction) : OperandSlot → Prop
  | .rd => IsRegisterIndex instruction.rd
  | .rs | .memory => IsRegisterIndex instruction.rs
  | .rt => IsRegisterIndex instruction.rt
  | .immediate | .shiftAmount | .branchTarget | .jumpTarget => True

theorem NamesRegisters.registerAt {instruction : Instruction}
    (names : instruction.NamesRegisters) {slot : OperandSlot}
    (among : slot ∈ instruction.shape.slots) : instruction.RegisterAt slot := by
  have used : ∀ field, _ = some field → IsRegisterIndex field :=
    fun field uses => names field (List.mem_filterMap.mpr ⟨slot, among, uses⟩)
  cases slot with
  | rd => exact used instruction.rd rfl
  | rs | memory => exact used instruction.rs rfl
  | rt => exact used instruction.rt rfl
  | _ => trivial

theorem namesRegisters_iff {instruction : Instruction} :
    instruction.NamesRegisters ↔
      ∀ slot ∈ instruction.shape.slots, instruction.RegisterAt slot := by
  constructor
  · intro names slot among
    exact names.registerAt among
  · intro valid field used
    obtain ⟨slot, among, uses⟩ := List.mem_filterMap.mp used
    have held := valid slot among
    cases slot with
    | rd | rs | rt | memory =>
        cases uses
        exact held
    | _ => cases uses

/-- Take what another instruction holds in a slot. -/
def copySlot (source target : Instruction) : OperandSlot → Instruction
  | .rd => { target with rd := source.rd }
  | .rs => { target with rs := source.rs }
  | .rt => { target with rt := source.rt }
  | .immediate | .shiftAmount | .branchTarget | .jumpTarget =>
      { target with immediate := source.immediate }
  | .memory =>
      { target with rs := source.rs, immediate := source.immediate }

/-- The operands that the shape of an instruction names, in an instruction that
is blank otherwise and has no label. -/
def plain (instruction : Instruction) : Instruction :=
  instruction.shape.slots.foldl instruction.copySlot
    (bare instruction.opcode instruction.line)

/-- Whether two instructions hold the same in a slot. -/
def AgreeAt (instruction other : Instruction) : OperandSlot → Prop
  | .rd => instruction.rd = other.rd
  | .rs => instruction.rs = other.rs
  | .rt => instruction.rt = other.rt
  | .immediate | .shiftAmount | .branchTarget | .jumpTarget =>
      instruction.immediate = other.immediate
  | .memory =>
      instruction.rs = other.rs ∧ instruction.immediate = other.immediate

/-- Two instructions of one operation and line that hold the same in every slot
of the operand shape.  Their other fields may differ, and so may their
labels. -/
structure SameOperands (instruction other : Instruction) : Prop where
  opcode : instruction.opcode = other.opcode
  line : instruction.line = other.line
  slots : ∀ slot ∈ instruction.shape.slots, instruction.AgreeAt other slot

theorem AgreeAt.copySlot_eq {instruction other : Instruction}
    {slot : OperandSlot} (agree : instruction.AgreeAt other slot)
    (target : Instruction) :
    instruction.copySlot target slot = other.copySlot target slot := by
  cases slot with
  | memory =>
      obtain ⟨base, offset⟩ := agree
      simp only [copySlot, base, offset]
  | _ =>
      unfold AgreeAt at agree
      simp only [copySlot, agree]

theorem foldl_copySlot_eq {instruction other : Instruction}
    {slots : List OperandSlot}
    (agree : ∀ slot ∈ slots, instruction.AgreeAt other slot)
    (target : Instruction) :
    slots.foldl instruction.copySlot target =
      slots.foldl other.copySlot target := by
  induction slots generalizing target with
  | nil => rfl
  | cons slot slots inductionHypothesis =>
      rw [List.foldl_cons, List.foldl_cons,
        (agree slot (by simp)).copySlot_eq]
      exact inductionHypothesis
        (fun other member => agree other (List.mem_cons_of_mem _ member)) _

theorem foldl_copySlot_frame (source target : Instruction)
    (slots : List OperandSlot) :
    (slots.foldl source.copySlot target).opcode = target.opcode ∧
      (slots.foldl source.copySlot target).line = target.line ∧
      (slots.foldl source.copySlot target).label? = target.label? := by
  induction slots generalizing target with
  | nil => exact ⟨rfl, rfl, rfl⟩
  | cons slot slots inductionHypothesis =>
      obtain ⟨sameOpcode, sameLine, sameLabel⟩ :=
        inductionHypothesis (source.copySlot target slot)
      rw [List.foldl_cons, sameOpcode, sameLine, sameLabel]
      cases slot <;> exact ⟨rfl, rfl, rfl⟩

theorem foldl_copySlot_label (source target : Instruction)
    (slots : List OperandSlot) (label? : Option String) :
    slots.foldl source.copySlot { target with label? := label? } =
      { slots.foldl source.copySlot target with label? := label? } := by
  induction slots generalizing target with
  | nil => rfl
  | cons slot slots inductionHypothesis =>
      rw [List.foldl_cons, List.foldl_cons, ← inductionHypothesis]
      cases slot <;> rfl

theorem SameOperands.plain_eq {instruction other : Instruction}
    (same : instruction.SameOperands other) :
    instruction.plain = other.plain := by
  unfold plain
  rw [foldl_copySlot_eq same.slots]
  unfold shape
  rw [same.opcode, same.line]

theorem plain_frame (instruction : Instruction) :
    instruction.plain.opcode = instruction.opcode ∧
      instruction.plain.line = instruction.line ∧
      instruction.plain.label? = none :=
  foldl_copySlot_frame instruction _ _

/-- The plain form holds what the instruction holds in the slots of its
shape. -/
theorem plain_agreeAt {instruction : Instruction} {slot : OperandSlot}
    (among : slot ∈ instruction.shape.slots) :
    instruction.plain.AgreeAt instruction slot := by
  unfold plain
  cases shape : instruction.shape <;> rw [shape] at among <;>
    simp only [OperandShape.slots, List.mem_cons, List.not_mem_nil, or_false]
      at among <;>
    rcases among with rfl | rfl | rfl <;>
    simp [OperandShape.slots, copySlot, AgreeAt]

/-- Nothing is left to be made plain of a plain form, whatever its line and its
label are. -/
theorem plain_plain (instruction : Instruction) (line : Nat)
    (label? : Option String) :
    plain { instruction.plain with line := line, label? := label? } =
      { instruction.plain with line := line } := by
  cases instruction with
  | mk opcode rd rs rt immediate oldLine oldLabel? =>
      cases opcode <;> rfl

end Instruction

end MiniMips
