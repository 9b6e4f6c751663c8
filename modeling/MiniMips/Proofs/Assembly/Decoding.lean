import Mathlib.Data.List.Forall2
import MiniMips.Assembly.Decoding
import MiniMips.Proofs.Assembly.Operands
import MiniMips.Proofs.Instruction.Plain

/-!
Contract: the instruction that a mnemonic and its operands denote.

Owns:
- what an operand denotes in a slot, as a relation to an instruction;
- that decoding yields the instruction that holds what its operands denote and
  is blank otherwise, and yields none where there is no such instruction;
- where the register fields of a decoded instruction come from, and the range of
  its shift amount.

Slots are filled one after the other.  This comes to the relation, which looks
at the filled instruction only, because no two slots of a shape share a field.
-/

namespace MiniMips

namespace Instruction

/-! ## Filling slots -/

/-- Taking what is held in one slot leaves another slot alone. -/
def Independent (slot other : OperandSlot) : Prop :=
  ∀ source target : Instruction,
    (source.copySlot target other).AgreeAt target slot

theorem independent_slots (shape : OperandShape) :
    shape.slots.Pairwise Independent := by
  cases shape <;>
    simp [OperandShape.slots, Independent, copySlot, AgreeAt]

theorem AgreeAt.trans {first second third : Instruction} {slot : OperandSlot}
    (agree : first.AgreeAt second slot) (further : second.AgreeAt third slot) :
    first.AgreeAt third slot := by
  cases slot with
  | memory =>
      exact ⟨agree.1.trans further.1, agree.2.trans further.2⟩
  | _ => exact Eq.trans agree further

theorem foldl_copySlot_agreeAt {slot : OperandSlot} {slots : List OperandSlot}
    (independent : ∀ other ∈ slots, Independent slot other)
    (source target : Instruction) :
    (slots.foldl source.copySlot target).AgreeAt target slot := by
  induction slots generalizing target with
  | nil => cases slot <;> simp [AgreeAt]
  | cons other slots inductionHypothesis =>
      rw [List.foldl_cons]
      exact (inductionHypothesis
        (fun later member =>
          independent later (List.mem_cons_of_mem _ member)) _).trans
        (independent other (by simp) source target)

/-- Whether an instruction at an address holds in a slot what an operand
denotes there. -/
inductive Holds (labels : LabelTable) (address : Nat)
    (instruction : Instruction) : OperandSlot → Operand → Prop where
  | rd {index : UInt8} (held : instruction.rd = index.toInt8) :
      Holds labels address instruction .rd (.register index)
  | rs {index : UInt8} (held : instruction.rs = index.toInt8) :
      Holds labels address instruction .rs (.register index)
  | rt {index : UInt8} (held : instruction.rt = index.toInt8) :
      Holds labels address instruction .rt (.register index)
  | immediate {value : Int32} (held : instruction.immediate = value) :
      Holds labels address instruction .immediate (.immediate value)
  | shiftAmount {value : Int32} (held : instruction.immediate = value)
      (inRange : 0 ≤ value ∧ value ≤ largestShift) :
      Holds labels address instruction .shiftAmount (.immediate value)
  | memory {offset : Int32} {base : UInt8}
      (heldBase : instruction.rs = base.toInt8)
      (heldOffset : instruction.immediate = offset) :
      Holds labels address instruction .memory (.memory offset base)
  | branchNumber {value : Int32} (held : instruction.immediate = value) :
      Holds labels address instruction .branchTarget (.immediate value)
  | branchLabel {name : String} {destination : Nat}
      (resolved : labels.resolve? name = some destination)
      (held : instruction.immediate = branchOffset address destination) :
      Holds labels address instruction .branchTarget (.symbol name)
  | jumpNumber {value : Int32} (held : instruction.immediate = value) :
      Holds labels address instruction .jumpTarget (.immediate value)
  | jumpLabel {name : String} {destination : Nat}
      (resolved : labels.resolve? name = some destination)
      (held : instruction.immediate = Int32.ofNat destination) :
      Holds labels address instruction .jumpTarget (.symbol name)

variable {labels : LabelTable} {address : Nat}
  {instruction target filled : Instruction} {slot : OperandSlot}
  {operand : Operand}

theorem Holds.accepts (holds : Holds labels address instruction slot operand) :
    slot.accepts operand = true := by
  cases holds <;> rfl

theorem Holds.of_agreeAt {other : Instruction}
    (holds : Holds labels address instruction slot operand)
    (agree : other.AgreeAt instruction slot) :
    Holds labels address other slot operand := by
  cases holds with
  | rd held => exact .rd (Eq.trans agree held)
  | rs held => exact .rs (Eq.trans agree held)
  | rt held => exact .rt (Eq.trans agree held)
  | immediate held => exact .immediate (Eq.trans agree held)
  | shiftAmount held inRange => exact .shiftAmount (Eq.trans agree held) inRange
  | memory heldBase heldOffset =>
      exact .memory (agree.1.trans heldBase) (agree.2.trans heldOffset)
  | branchNumber held => exact .branchNumber (Eq.trans agree held)
  | branchLabel resolved held =>
      exact .branchLabel resolved (Eq.trans agree held)
  | jumpNumber held => exact .jumpNumber (Eq.trans agree held)
  | jumpLabel resolved held => exact .jumpLabel resolved (Eq.trans agree held)

/-- Filling a slot makes an instruction hold what the operand denotes there,
and changes nothing else. -/
theorem fill_eq_ok_iff :
    target.fill labels address slot operand = .ok filled ↔
      Holds labels address filled slot operand ∧
        filled.copySlot target slot = filled := by
  constructor
  · intro fills
    cases slot with
    | rd =>
        cases operand <;> cases fills
        exact ⟨.rd rfl, rfl⟩
    | rs =>
        cases operand <;> cases fills
        exact ⟨.rs rfl, rfl⟩
    | rt =>
        cases operand <;> cases fills
        exact ⟨.rt rfl, rfl⟩
    | immediate =>
        cases operand <;> cases fills
        exact ⟨.immediate rfl, rfl⟩
    | memory =>
        cases operand <;> cases fills
        exact ⟨.memory rfl rfl, rfl⟩
    | shiftAmount =>
        cases operand with
        | immediate value =>
            by_cases inRange : 0 ≤ value ∧ value ≤ largestShift
            · rw [fill, if_pos inRange] at fills
              cases fills
              exact ⟨.shiftAmount rfl inRange, rfl⟩
            · rw [fill, if_neg inRange] at fills
              contradiction
        | _ => cases fills
    | branchTarget =>
        cases operand with
        | immediate value =>
            cases fills
            exact ⟨.branchNumber rfl, rfl⟩
        | symbol name =>
            cases resolved : labels.resolve? name with
            | none => simp [fill, resolved] at fills
            | some destination =>
                simp only [fill, resolved] at fills
                cases fills
                exact ⟨.branchLabel resolved rfl, rfl⟩
        | _ => cases fills
    | jumpTarget =>
        cases operand with
        | immediate value =>
            cases fills
            exact ⟨.jumpNumber rfl, rfl⟩
        | symbol name =>
            cases resolved : labels.resolve? name with
            | none => simp [fill, resolved] at fills
            | some destination =>
                simp only [fill, resolved] at fills
                cases fills
                exact ⟨.jumpLabel resolved rfl, rfl⟩
        | _ => cases fills
  · rintro ⟨holds, same⟩
    rw [← same]
    cases holds with
    | memory heldBase heldOffset =>
        rw [fill, ← heldBase, ← heldOffset]
        rfl
    | shiftAmount held inRange =>
        rw [fill, if_pos inRange, ← held]
        rfl
    | branchLabel resolved held | jumpLabel resolved held =>
        simp only [fill, resolved, ← held]
        rfl
    | _ held =>
        rw [fill, ← held]
        rfl

theorem fillAll_eq_ok_iff {slots : List OperandSlot}
    {operands : List Operand} (independent : slots.Pairwise Independent)
    (sameLength : slots.length = operands.length) :
    fillAll labels address target slots operands = .ok filled ↔
      List.Forall₂ (Holds labels address filled) slots operands ∧
        slots.foldl filled.copySlot target = filled := by
  induction slots generalizing target operands with
  | nil =>
      obtain rfl := List.length_eq_zero_iff.mp sameLength.symm
      simp [fillAll]
  | cons slot slots inductionHypothesis =>
      cases operands with
      | nil => simp at sameLength
      | cons operand operands =>
          obtain ⟨apart, independent⟩ := List.pairwise_cons.mp independent
          have sameRest : slots.length = operands.length := by
            simpa using sameLength
          rw [List.forall₂_cons, List.foldl_cons]
          constructor
          · intro fills
            rw [fillAll] at fills
            cases first : target.fill labels address slot operand with
            | error fault => simp [first] at fills
            | ok middle =>
                simp only [first] at fills
                obtain ⟨holds, sameFirst⟩ := fill_eq_ok_iff.mp first
                obtain ⟨others, sameOthers⟩ :=
                  (inductionHypothesis independent sameRest).mp fills
                -- What the other slots take leaves this slot as it is.
                have agree : filled.AgreeAt middle slot := by
                  rw [← sameOthers]
                  exact foldl_copySlot_agreeAt apart filled middle
                rw [agree.copySlot_eq, sameFirst]
                exact ⟨⟨holds.of_agreeAt agree, others⟩, sameOthers⟩
          · rintro ⟨⟨holds, others⟩, same⟩
            have agree :
                (filled.copySlot target slot).AgreeAt filled slot := by
              cases slot <;> simp [AgreeAt, copySlot]
            have first : target.fill labels address slot operand =
                .ok (filled.copySlot target slot) :=
              fill_eq_ok_iff.mpr ⟨holds.of_agreeAt agree, agree.copySlot_eq _⟩
            rw [fillAll, first]
            exact (inductionHypothesis independent sameRest).mpr ⟨others, same⟩

/-! ## Decoding -/

theorem acceptAll_iff {slots : List OperandSlot} {operands : List Operand} :
    OperandSlot.acceptAll slots operands = true ↔
      List.Forall₂ (fun slot operand => slot.accepts operand = true) slots
        operands := by
  induction slots generalizing operands with
  | nil => cases operands <;> simp [OperandSlot.acceptAll]
  | cons slot slots inductionHypothesis =>
      cases operands with
      | nil => simp [OperandSlot.acceptAll]
      | cons operand operands =>
          simp [OperandSlot.acceptAll, inductionHypothesis]

/-- An instruction is what a mnemonic and operand tokens denote at an address:
it holds what the operands denote in the slots of its shape, has the label of
its address, and is blank otherwise. -/
structure Denoted (labels : LabelTable) (address : Nat) (mnemonic : String)
    (line : Nat) (tokens : List Token) (instruction : Instruction) : Prop where
  opcode : Opcode.ofMnemonic? mnemonic.toList = some instruction.opcode
  line : instruction.line = line
  label : instruction.label? = labels.nameAt? address
  blank : { instruction.plain with label? := instruction.label? } = instruction
  operands : ∃ operands, Operand.Written (tokens.map Token.kind) operands ∧
    List.Forall₂ (Holds labels address instruction) instruction.shape.slots
      operands

/-- Every register field that is used was read from a register token. -/
theorem Denoted.exists_register {mnemonic : String} {line : Nat}
    {tokens : List Token}
    (denoted : Denoted labels address mnemonic line tokens instruction)
    {field : Int8} (used : field ∈ instruction.usedFields) :
    ∃ index, .register index ∈ tokens.map Token.kind ∧
      field = index.toInt8 := by
  obtain ⟨operands, written, holds⟩ := denoted.operands
  have named : ∃ operand ∈ operands, ∃ index,
      operand.register? = some index ∧ field = index.toInt8 := by
    unfold usedFields at used
    clear written
    generalize instruction.shape.slots = slots at used holds
    induction holds with
    | nil => simp at used
    | @cons slot operand slots operands held _ inductionHypothesis =>
        obtain ⟨used, member, uses⟩ := List.mem_filterMap.mp used
        rcases List.mem_cons.mp member with rfl | inRest
        · refine ⟨operand, by simp, ?_⟩
          cases held with
          | rd held | rs held | rt held | memory held _ =>
              cases uses
              exact ⟨_, rfl, held⟩
          | _ => cases uses
        · obtain ⟨other, among, names⟩ := inductionHypothesis
            (List.mem_filterMap.mpr ⟨used, inRest, uses⟩)
          exact ⟨other, List.mem_cons_of_mem _ among, names⟩
  obtain ⟨operand, member, index, names, rfl⟩ := named
  exact ⟨index, written.register_mem member names, rfl⟩

/-- A shift amount is within the length of a word. -/
theorem Denoted.shift_inRange {mnemonic : String} {line : Nat}
    {tokens : List Token}
    (denoted : Denoted labels address mnemonic line tokens instruction)
    (shifts : .shiftAmount ∈ instruction.shape.slots) :
    0 ≤ instruction.immediate ∧ instruction.immediate ≤ largestShift := by
  obtain ⟨operands, -, holds⟩ := denoted.operands
  generalize instruction.shape.slots = slots at shifts holds
  induction holds with
  | nil => contradiction
  | cons held _ inductionHypothesis =>
      rcases List.mem_cons.mp shifts with rfl | inRest
      · cases held with
        | shiftAmount held inRange =>
            rw [held]
            exact inRange
      · exact inductionHypothesis inRest

theorem ofOperands_eq_ok_iff {opcode : Opcode} {line : Nat}
    {tokens : List Token} :
    ofOperands labels address opcode line tokens = .ok instruction ↔
      ∃ operands, Operand.Written (tokens.map Token.kind) operands ∧
        List.Forall₂ (Holds labels address instruction) opcode.shape.slots
          operands ∧
        opcode.shape.slots.foldl instruction.copySlot
          { bare opcode line with label? := labels.nameAt? address } =
            instruction := by
  have groups : ∀ operands, Operand.ofTokens? tokens = some operands ↔
      Operand.Written (tokens.map Token.kind) operands :=
    fun _ => Operand.ofKinds?_eq_some_iff
  have independent := independent_slots opcode.shape
  unfold ofOperands
  constructor
  · intro denotes
    cases grouped : Operand.ofTokens? tokens with
    | none => simp [grouped] at denotes
    | some operands =>
        simp only [grouped] at denotes
        cases accepted :
            OperandSlot.acceptAll opcode.shape.slots operands with
        | false => simp [accepted] at denotes
        | true =>
            rw [accepted, if_pos rfl] at denotes
            have sameLength := (acceptAll_iff.mp accepted).length_eq
            exact ⟨operands, (groups operands).mp grouped,
              (fillAll_eq_ok_iff independent sameLength).mp denotes⟩
  · rintro ⟨operands, written, holds, same⟩
    have accepted : OperandSlot.acceptAll opcode.shape.slots operands = true :=
      acceptAll_iff.mpr (holds.imp fun _ _ each => each.accepts)
    simp only [(groups operands).mpr written, accepted, if_true]
    exact (fillAll_eq_ok_iff independent holds.length_eq).mpr ⟨holds, same⟩

/-- **Decoding.**  A mnemonic and operand tokens are decoded to the instruction
that they denote. -/
theorem decode_eq_ok_iff {mnemonic : String} {line : Nat}
    {tokens : List Token} :
    decode labels address mnemonic line tokens = .ok instruction ↔
      Denoted labels address mnemonic line tokens instruction := by
  unfold decode
  constructor
  · intro decodes
    cases known : Opcode.ofMnemonic? mnemonic.toList with
    | none => simp [known] at decodes
    | some opcode =>
        simp only [known] at decodes
        cases denotes : ofOperands labels address opcode line tokens with
        | error fault => simp [denotes] at decodes
        | ok denoted =>
            simp only [denotes, Except.ok.injEq] at decodes
            subst decodes
            obtain ⟨operands, written, holds, same⟩ :=
              ofOperands_eq_ok_iff.mp denotes
            obtain ⟨sameOpcode, sameLine, sameLabel⟩ :=
              foldl_copySlot_frame denoted
                { bare opcode line with label? := labels.nameAt? address }
                opcode.shape.slots
            rw [same] at sameOpcode sameLine sameLabel
            have sameOpcode : denoted.opcode = opcode := sameOpcode
            have sameLine : denoted.line = line := sameLine
            refine ⟨by rw [known, sameOpcode], sameLine, sameLabel, ?_,
              operands, written, ?_⟩
            · rw [foldl_copySlot_label] at same
              unfold plain shape
              rw [sameOpcode, sameLine, sameLabel]
              exact same
            · unfold shape
              rw [sameOpcode]
              exact holds
  · rintro ⟨known, rfl, sameLabel, blank, operands, written, holds⟩
    have denotes : ofOperands labels address instruction.opcode
        instruction.line tokens = .ok instruction := by
      refine ofOperands_eq_ok_iff.mpr ⟨operands, written, holds, ?_⟩
      rw [foldl_copySlot_label, ← sameLabel]
      exact blank
    simp only [known, denotes]

end Instruction

end MiniMips
