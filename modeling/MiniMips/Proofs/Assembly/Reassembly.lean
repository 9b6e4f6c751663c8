import MiniMips.Proofs.Assembly.Disassembly
import MiniMips.Proofs.Assembly.LineByLine
import MiniMips.Proofs.Assembly.Programs

/-!
Contract: the text of one instruction read back, whatever its fields hold.

Owns:
- the fields of an instruction that its operation does not use, which its text
  does not show;
- the fault of a text that shows a register that there is not;
- which texts are assembled, what they are assembled to, and what the others
  are refused for.

Does not own: the texts of whole programs, which show labels as well.
-/

namespace MiniMips

variable {instruction : Instruction} {slot : OperandSlot}

/-- Whether a number is written in a slot. -/
def OperandSlot.takesNumber : OperandSlot → Bool
  | .rd | .rs | .rt => false
  | .immediate | .shiftAmount | .branchTarget | .jumpTarget | .memory => true

namespace Instruction

/-- A line break or a comment mark is no part of the text of an
instruction. -/
theorem not_mem_disassembly (instruction : Instruction) {character : Char}
    (foreign : Lexeme.isForeign character = true)
    (differs : character ≠ '?') :
    character ∉ instruction.disassembly.toList := by
  intro member
  have noStray : .stray character ∉
      Lexeme.word instruction.opcode.mnemonic.toList ::
        instruction.operandLexemes := by
    intro stray
    have among : .stray character ∈ instruction.operandLexemes := by
      simpa using stray
    obtain ⟨slot, _, inSlot⟩ := List.mem_flatMap.mp among
    exact differs (stray_mem_slotLexemes inSlot).1
  have ordinary :=
    instruction.written_disassembly.not_isForeign noStray member
  rw [foreign] at ordinary
  contradiction

/-- The text of an instruction is read as its lexemes, in one line. -/
theorem lex_disassembly (instruction : Instruction) :
    lex instruction.disassembly =
      Lexeme.tokens 1 false (.word instruction.opcode.mnemonic.toList ::
        instruction.operandLexemes) := by
  have unbroken : '\n' ∉ instruction.disassembly.toList :=
    instruction.not_mem_disassembly (by decide) (by decide)
  have uncommented : '#' ∉ instruction.disassembly.toList :=
    instruction.not_mem_disassembly (by decide) (by decide)
  have reads := lex_of_not_mem unbroken
  rw [String.ofList_toList, tokensOfLine, codeOfLine_of_not_mem uncommented,
    Lexeme.split_eq_iff.mpr instruction.written_disassembly] at reads
  exact reads

/-! ## Registers that there are not -/

/-- In a slot whose register there is not, the mark of the register stands
alone, after lexemes that stand for tokens. -/
theorem exists_loneMark_of_not_registerAt
    (invalid : ¬ instruction.RegisterAt slot) :
    ∃ before kinds after,
      instruction.slotLexemes slot = before ++ .register [] :: after ∧
      List.Forall₂ (fun lexeme kind => Lexeme.tokenKind true lexeme = .ok kind)
        before kinds := by
  cases slot with
  | rd | rs | rt =>
      exact ⟨[], [], _, fieldLexemes_of_not_isRegisterIndex invalid, .nil⟩
  | memory =>
      refine ⟨[immediateLexeme instruction.immediate, .openParenthesis],
        [.immediate instruction.immediate, .openParenthesis],
        [.stray '?', .stray '?', .closeParenthesis], ?_,
        .cons (tokenKind_immediateLexeme _ true) (.cons rfl .nil)⟩
      rw [slotLexemes, fieldLexemes_of_not_isRegisterIndex invalid]
      rfl
  | immediate | shiftAmount | branchTarget | jumpTarget =>
      exact absurd trivial invalid

theorem exists_loneMark (invalid : ¬ instruction.NamesRegisters) :
    ∃ before kinds after,
      instruction.operandLexemes = before ++ .register [] :: after ∧
      List.Forall₂ (fun lexeme kind => Lexeme.tokenKind true lexeme = .ok kind)
        before kinds := by
  rw [namesRegisters_iff] at invalid
  unfold operandLexemes
  generalize instruction.shape.slots = slots at invalid
  induction slots with
  | nil => exact absurd (List.forall_mem_nil _) invalid
  | cons slot slots inductionHypothesis =>
      rw [List.flatMap_cons]
      by_cases valid : instruction.RegisterAt slot
      · rw [List.forall_mem_cons, not_and] at invalid
        obtain ⟨before, kinds, after, lexemes, means⟩ :=
          inductionHypothesis (invalid valid)
        refine ⟨instruction.slotLexemes slot ++ before, _, after, ?_,
          List.rel_append (tokenKind_slotLexemes valid) means⟩
        rw [lexemes, List.append_assoc]
      · obtain ⟨before, kinds, after, lexemes, means⟩ :=
          exists_loneMark_of_not_registerAt valid
        refine ⟨before, kinds, after ++ slots.flatMap instruction.slotLexemes,
          ?_, means⟩
        rw [lexemes, List.append_assoc, List.cons_append]

/-- A text with a register that there is not is refused for it when it is
read. -/
theorem lex_disassembly_of_unknown
    (invalid : ¬ instruction.NamesRegisters) :
    lex instruction.disassembly = .error ⟨1, .unknownRegister "$"⟩ := by
  obtain ⟨before, kinds, after, lexemes, means⟩ := exists_loneMark invalid
  have fault : Lexeme.tokenKind true (.register []) =
      .error (.unknownRegister "$") := by
    decide
  rw [lex_disassembly, lexemes, Lexeme.tokens,
    Opcode.tokenKind_mnemonic]
  simp only [Lexeme.isWord, Bool.false_or,
    Lexeme.tokens_of_fault 1 means fault]

/-! ## Registers that there are -/

/-- The tokens of a single statement have its instruction as their program,
unless it denotes none. -/
theorem ofTokens_of_statement {tokens operandTokens : List Token}
    {mnemonic : String} {line : Nat}
    (made : Statement.MadeOf tokens
      [.instruction mnemonic line operandTokens]) :
    Program.ofTokens tokens =
      match decode LabelTable.empty 0 mnemonic line operandTokens with
      | .error parseError => .error parseError
      | .ok instruction => .ok ⟨#[instruction], LabelTable.empty⟩ := by
  simp only [Program.ofTokens, Statement.ofTokens_eq_ok_iff.mpr made,
    Program.ofStatements, LabelTable.ofStatements, ofStatements]
  cases decode LabelTable.empty 0 mnemonic line operandTokens with
  | error parseError => rfl
  | ok instruction => rfl

/-- Operands that say what an instruction holds always suit its shape. -/
theorem acceptAll_operands (instruction : Instruction) :
    OperandSlot.acceptAll instruction.shape.slots instruction.operands =
      true := by
  refine acceptAll_iff.mpr (List.forall₂_map_right_iff.mpr
    (List.forall₂_same.mpr fun slot _ => ?_))
  cases slot <;> rfl

/-- A shift amount outside a word is refused when it is filled in. -/
theorem decode_of_not_shift {labels : LabelTable} {address line : Nat}
    {operandTokens : List Token}
    (kinds : operandTokens.map Token.kind =
      instruction.operands.flatMap Operand.tokenKinds)
    (shifts : .shiftAmount ∈ instruction.shape.slots)
    (outside : ¬ (0 ≤ instruction.immediate ∧
      instruction.immediate ≤ largestShift)) :
    decode labels address instruction.opcode.mnemonic line operandTokens =
      .error ⟨line, .shiftOutOfRange instruction.immediate⟩ := by
  have grouped :
      Operand.ofTokens? operandTokens = some instruction.operands := by
    rw [Operand.ofTokens?, kinds]
    exact Operand.ofKinds?_eq_some_iff.mpr (Operand.written_tokenKinds _)
  have accepted : OperandSlot.acceptAll instruction.opcode.shape.slots
      instruction.operands = true :=
    instruction.acceptAll_operands
  have slots : instruction.opcode.shape.slots = [.rd, .rs, .shiftAmount] := by
    unfold shape at shifts
    cases shape : instruction.opcode.shape <;> rw [shape] at shifts <;>
      simp [OperandShape.slots] at shifts ⊢
  have filled (target : Instruction) : fillAll labels address target
      instruction.opcode.shape.slots instruction.operands =
        .error (.shiftOutOfRange instruction.immediate) := by
    rw [operands, shape, slots]
    simp only [List.map_cons, List.map_nil, slotOperand, fillAll, fill,
      if_neg outside]
  simp only [decode, Opcode.ofMnemonic?_mnemonic, ofOperands, grouped,
    accepted, if_true, filled]

/-! ## Whole texts -/

/-- The fields of a plain form: those that its operation does not use are
blank. -/
theorem plain_fields (instruction : Instruction) :
    instruction.plain.rd =
        (if .rd ∈ instruction.shape.slots then instruction.rd else -1) ∧
      instruction.plain.rs =
        (if .rs ∈ instruction.shape.slots ∨
            .memory ∈ instruction.shape.slots then
          instruction.rs else -1) ∧
      instruction.plain.rt =
        (if .rt ∈ instruction.shape.slots then instruction.rt else -1) ∧
      instruction.plain.immediate =
        (if instruction.shape.slots.any OperandSlot.takesNumber then
          instruction.immediate else 0) := by
  unfold plain
  cases instruction.shape <;> exact ⟨rfl, rfl, rfl, rfl⟩

/-- Whether a shift amount, where there is one, is within the length of a
word. -/
def ShiftsWithinWord (instruction : Instruction) : Prop :=
  .shiftAmount ∈ instruction.shape.slots →
    0 ≤ instruction.immediate ∧ instruction.immediate ≤ 31

/-- What the text of an instruction is assembled to: its operands, in an
instruction that is blank otherwise and stands on the only line. -/
def rereadAlone (instruction : Instruction) : Instruction :=
  { instruction.plain with line := 1 }

theorem program_of_disassembly (names : instruction.NamesRegisters) :
    ∃ tokens, lex instruction.disassembly = .ok tokens ∧
      (instruction.ShiftsWithinWord →
        Program.ofTokens tokens =
          .ok ⟨#[instruction.rereadAlone], LabelTable.empty⟩) ∧
      (¬ instruction.ShiftsWithinWord →
        Program.ofTokens tokens =
          .error ⟨1, .shiftOutOfRange instruction.immediate⟩) := by
  obtain ⟨tokens, operandTokens, standFor, made, kinds⟩ :=
    exists_statement names 1
  refine ⟨tokens, ?_, fun within => ?_, fun outside => ?_⟩
  · rw [lex_disassembly]
    exact Lexeme.tokens_eq_ok_iff.mpr standFor
  · have denoted : Denoted LabelTable.empty 0 instruction.opcode.mnemonic 1
        operandTokens { instruction.plain with line := 1, label? := none } :=
      denoted_plain within kinds
    have blank : instruction.rereadAlone =
        { instruction.plain with line := 1, label? := none } := by
      rw [rereadAlone, ← instruction.plain_frame.2.2]
    rw [ofTokens_of_statement made, decode_eq_ok_iff.mpr denoted, blank]
  · have shifts : .shiftAmount ∈ instruction.shape.slots := by
      by_contra absent
      exact outside fun among => absurd among absent
    rw [ofTokens_of_statement made, decode_of_not_shift kinds shifts
      (fun within => outside fun _ => within)]

/-- **Disassembly.**  The text of an instruction is assembled exactly where
all the registers that its operation uses exist and a shift amount is within a
word.  It is assembled to the same operation with the same operands, in an
instruction that is blank otherwise.  Any other text is refused, for its
register first. -/
theorem assemble_disassembly (instruction : Instruction) :
    ((∃ assembled, assemble instruction.disassembly = .ok assembled) ↔
      instruction.NamesRegisters ∧ instruction.ShiftsWithinWord) ∧
    (∀ assembled, assemble instruction.disassembly = .ok assembled →
      ∃ reread, assembled.program = ⟨#[reread], LabelTable.empty⟩ ∧
        reread.opcode = instruction.opcode ∧
        reread.rd =
          (if .rd ∈ instruction.shape.slots then instruction.rd else -1) ∧
        reread.rs =
          (if .rs ∈ instruction.shape.slots ∨
              .memory ∈ instruction.shape.slots then
            instruction.rs else -1) ∧
        reread.rt =
          (if .rt ∈ instruction.shape.slots then instruction.rt else -1) ∧
        reread.immediate =
          (if instruction.shape.slots.any OperandSlot.takesNumber then
            instruction.immediate else 0) ∧
        reread.line = 1 ∧ reread.label? = none) ∧
    (¬ instruction.NamesRegisters →
      assemble instruction.disassembly =
        .error (.lex ⟨1, .unknownRegister "$"⟩)) ∧
    (instruction.NamesRegisters → ¬ instruction.ShiftsWithinWord →
      assemble instruction.disassembly =
        .error (.parse ⟨1, .shiftOutOfRange instruction.immediate⟩)) := by
  have unknown (invalid : ¬ instruction.NamesRegisters) :
      assemble instruction.disassembly =
        .error (.lex ⟨1, .unknownRegister "$"⟩) := by
    unfold assemble
    rw [lex_disassembly_of_unknown invalid]
  have tooLong (names : instruction.NamesRegisters)
      (outside : ¬ instruction.ShiftsWithinWord) :
      assemble instruction.disassembly =
        .error (.parse ⟨1, .shiftOutOfRange instruction.immediate⟩) := by
    obtain ⟨tokens, reads, _, refused⟩ := program_of_disassembly names
    simp only [assemble, reads, refused outside]
  have accepted (names : instruction.NamesRegisters)
      (within : instruction.ShiftsWithinWord) :
      ∃ tokens, assemble instruction.disassembly =
        .ok ⟨tokens, ⟨#[instruction.rereadAlone], LabelTable.empty⟩⟩ := by
    obtain ⟨tokens, reads, program, _⟩ := program_of_disassembly names
    exact ⟨tokens, assemble_eq_ok_iff.mpr ⟨reads, program within⟩⟩
  have readable (assembled : Assembled)
      (assembles : assemble instruction.disassembly = .ok assembled) :
      instruction.NamesRegisters ∧ instruction.ShiftsWithinWord := by
    by_cases names : instruction.NamesRegisters
    · by_cases within : instruction.ShiftsWithinWord
      · exact ⟨names, within⟩
      · cases (tooLong names within).symm.trans assembles
    · cases (unknown names).symm.trans assembles
  refine ⟨⟨fun ⟨assembled, assembles⟩ => readable assembled assembles, ?_⟩,
    ?_, unknown, tooLong⟩
  · intro expressible
    obtain ⟨tokens, assembles⟩ := accepted expressible.1 expressible.2
    exact ⟨_, assembles⟩
  · intro assembled assembles
    obtain ⟨names, within⟩ := readable assembled assembles
    obtain ⟨tokens, program⟩ := accepted names within
    cases program.symm.trans assembles
    obtain ⟨sameOpcode, _, noLabel⟩ := instruction.plain_frame
    obtain ⟨rd, rs, rt, immediate⟩ := instruction.plain_fields
    exact ⟨instruction.rereadAlone, rfl, sameOpcode, rd, rs, rt, immediate,
      rfl, noLabel⟩

/-- A shift by 31 is read back without what it does not use, a shift by -1 is
not, and neither is one of a register that there is not. -/
theorem assemble_disassembly_shift :
    let shift (source : Int8) (amount : Int32) : Instruction :=
      ⟨.sll, 9, source, 99, amount, 7, some "loop"⟩
    (∃ assembled, assemble "sll $t1, $s7, 31" = .ok assembled ∧
      assembled.program.instructions =
        #[⟨.sll, 9, 23, -1, 31, 1, none⟩]) ∧
    assemble "sll $t1, $s7, -1" = .error (.parse ⟨1, .shiftOutOfRange (-1)⟩) ∧
    (shift 32 (-1)).disassembly = "sll $t1, $??, -1" ∧
    assemble "sll $t1, $??, -1" = .error (.lex ⟨1, .unknownRegister "$"⟩) := by
  intro shift
  have names (amount : Int32) : (shift 23 amount).NamesRegisters := by
    show ∀ field ∈ [(9 : Int8), 23], IsRegisterIndex field
    exact List.forall_mem_cons.mpr
      ⟨by decide, List.forall_mem_singleton.mpr (by decide)⟩
  have within : (shift 23 31).ShiftsWithinWord := fun _ => by decide
  have outside : ¬ (shift 23 (-1)).ShiftsWithinWord :=
    fun within => absurd (within (by decide)) (by decide)
  have unknown : ¬ (shift 32 (-1)).NamesRegisters := by
    show ¬ ∀ field ∈ [(9 : Int8), 32], IsRegisterIndex field
    intro names
    exact absurd (names 32 (by simp)) (by decide)
  have text : (shift 23 31).disassembly = "sll $t1, $s7, 31" := by
    decide +kernel
  have textOutside : (shift 23 (-1)).disassembly = "sll $t1, $s7, -1" := by
    decide +kernel
  have textUnknown : (shift 32 (-1)).disassembly = "sll $t1, $??, -1" := by
    decide +kernel
  obtain ⟨readable, reread, _, _⟩ := assemble_disassembly (shift 23 31)
  obtain ⟨_, _, _, tooLong⟩ := assemble_disassembly (shift 23 (-1))
  obtain ⟨_, _, unreadable, _⟩ := assemble_disassembly (shift 32 (-1))
  rw [text] at readable reread
  rw [textOutside] at tooLong
  rw [textUnknown] at unreadable
  refine ⟨?_, tooLong (names (-1)) outside, textUnknown, unreadable unknown⟩
  obtain ⟨assembled, assembles⟩ := readable.mpr ⟨names 31, within⟩
  obtain ⟨single, program, opcode, rd, rs, rt, immediate, line, label⟩ :=
    reread assembled assembles
  refine ⟨assembled, assembles, ?_⟩
  rw [program]
  cases single
  cases opcode
  cases rd
  cases rs
  cases rt
  cases immediate
  cases line
  cases label
  rfl

end Instruction

end MiniMips
