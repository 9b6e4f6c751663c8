import MiniMips.Proofs.Assembly.Decoding
import MiniMips.Proofs.Assembly.Statements
import MiniMips.Proofs.Assembly.Tokens
import MiniMips.Proofs.Numeral

/-!
Contract: the text of an instruction read back.

Owns:
- the lexemes that the text of an instruction is cut into, slot by slot;
- the operands that these lexemes stand for;
- the statements of the text, and that they denote the plain form of the
  instruction again.

Every instruction has a text that is cut into its lexemes.  They stand for
operands where the fields that are used name registers, whether the instruction
was assembled or built by hand.
-/

namespace MiniMips

/-! ## Register names -/

theorem Register.ofName?_name :
    ∀ register : Register, ofName? (name register).toList = some register := by
  decide

theorem Register.isNameCharacter_name :
    ∀ register : Register,
      (name register).toList.all isNameCharacter = true := by
  decide

theorem Register.toInt_toInt8 :
    ∀ register : Register,
      (UInt8.ofNat register.val).toInt8.toInt = register.val := by
  decide

/-- A field that is a register index names one register. -/
theorem Register.exists_of_isRegisterIndex {field : Int8}
    (valid : IsRegisterIndex field) :
    ∃ register, ofField? field = some register ∧
      UInt8.ofNat register.val = field.toUInt8 := by
  obtain ⟨index, same⟩ := Int.eq_ofNat_of_zero_le valid.1
  have inside : index < 32 := by
    have upper := valid.2
    omega
  refine ⟨⟨index, inside⟩, ?_, ?_⟩
  · simp [ofField?, same, ofNat?, inside]
  · have signed := toInt_toInt8 ⟨index, inside⟩
    rw [← same, Int8.toInt_inj] at signed
    rw [← signed]
    simp

theorem Opcode.ofMnemonic?_mnemonic (opcode : Opcode) :
    ofMnemonic? opcode.mnemonic.toList = some opcode := by
  cases opcode <;> decide

theorem Opcode.isName_mnemonic (opcode : Opcode) :
    isName opcode.mnemonic.toList = true := by
  cases opcode <;> decide

theorem Opcode.toLower_mnemonic (opcode : Opcode) :
    opcode.mnemonic.toList.map Char.toLower = opcode.mnemonic.toList := by
  cases opcode <;> decide

theorem Opcode.tokenKind_mnemonic (opcode : Opcode) :
    Lexeme.tokenKind false (.word opcode.mnemonic.toList) =
      .ok (.mnemonic opcode.mnemonic) := by
  simp [Lexeme.tokenKind, toLower_mnemonic]

namespace Instruction

/-! ## Slots -/

/-- The lexemes of a register field.  Where the field names no register, the
mark stands alone. -/
def fieldLexemes (field : Int8) : List Lexeme :=
  match Register.ofField? field with
  | some register => [.register (Register.name register).toList]
  | none => [.register [], .stray '?', .stray '?']

def immediateLexeme (immediate : Int32) : Lexeme :=
  .integer (Numeral.ofInt immediate.toInt).toList

/-- The lexemes of what an instruction holds in a slot. -/
def slotLexemes (instruction : Instruction) : OperandSlot → List Lexeme
  | .rd => fieldLexemes instruction.rd
  | .rs => fieldLexemes instruction.rs
  | .rt => fieldLexemes instruction.rt
  | .immediate | .shiftAmount | .branchTarget | .jumpTarget =>
      [immediateLexeme instruction.immediate]
  | .memory =>
      [immediateLexeme instruction.immediate, .openParenthesis] ++
        fieldLexemes instruction.rs ++ [.closeParenthesis]

/-- What an instruction holds in a slot, as an operand. -/
def slotOperand (instruction : Instruction) : OperandSlot → Operand
  | .rd => .register instruction.rd.toUInt8
  | .rs => .register instruction.rs.toUInt8
  | .rt => .register instruction.rt.toUInt8
  | .immediate | .shiftAmount | .branchTarget | .jumpTarget =>
      .immediate instruction.immediate
  | .memory => .memory instruction.immediate instruction.rs.toUInt8

variable {instruction : Instruction} {field : Int8} {slot : OperandSlot}

theorem fieldLexemes_of_isRegisterIndex (valid : IsRegisterIndex field)
    (mnemonicSeen : Bool) :
    ∃ name, fieldLexemes field = [.register name] ∧
      Lexeme.tokenKind mnemonicSeen (.register name) =
        .ok (.register field.toUInt8) := by
  obtain ⟨register, names, index⟩ := Register.exists_of_isRegisterIndex valid
  refine ⟨(Register.name register).toList, by simp [fieldLexemes, names], ?_⟩
  simp only [Lexeme.tokenKind, Register.ofName?_name, index]

theorem fieldLexemes_of_not_isRegisterIndex
    (invalid : ¬ IsRegisterIndex field) :
    fieldLexemes field = [.register [], .stray '?', .stray '?'] := by
  have none := (Register.ofField?_isNone_iff field).mpr invalid
  rw [Option.isNone_iff_eq_none] at none
  simp only [fieldLexemes, none]

theorem written_fieldText (field : Int8) :
    Lexeme.Written (fieldText field).toList (fieldLexemes field) := by
  rw [fieldText, String.toList_append, fieldLexemes]
  cases Register.ofField? field with
  | some register =>
      have proper : Lexeme.isProper (.register (Register.name register).toList) =
          true :=
        register.isNameCharacter_name
      exact .single proper
  | none =>
      have mark : Lexeme.isProper (.register []) = true := rfl
      have stray : Lexeme.isProper (.stray '?') = true := rfl
      have apart : ∀ first ∈ ['?', '?'].head?,
          Lexeme.continues (.register []) first = false := by
        intro first member
        cases member
        rfl
      exact .lexeme mark apart
        (.lexeme stray (fun _ _ => rfl) (.single stray))

theorem isProper_immediateLexeme (immediate : Int32) :
    (immediateLexeme immediate).isProper = true :=
  Numeral.isLiteral_ofInt immediate.toInt

theorem tokenKind_immediateLexeme (immediate : Int32) (mnemonicSeen : Bool) :
    (immediateLexeme immediate).tokenKind mnemonicSeen =
      .ok (.immediate immediate) := by
  simp only [immediateLexeme, Lexeme.tokenKind, IntegerLiteral.read_ofInt]

/-- The text of a slot is cut into its lexemes. -/
theorem written_slotText (instruction : Instruction) (slot : OperandSlot) :
    Lexeme.Written (instruction.slotText slot).toList
      (instruction.slotLexemes slot) := by
  have immediate : Lexeme.Written
      (Numeral.ofInt instruction.immediate.toInt).toList
      [immediateLexeme instruction.immediate] :=
    .single (isProper_immediateLexeme instruction.immediate)
  cases slot with
  | rd | rs | rt => exact written_fieldText _
  | immediate | shiftAmount | branchTarget | jumpTarget => exact immediate
  | memory =>
      have opened : Lexeme.Written (Lexeme.text .openParenthesis)
          [.openParenthesis] := .single rfl
      have closed : Lexeme.Written (Lexeme.text .closeParenthesis)
          [.closeParenthesis] := .single rfl
      have marked : ∀ {mark}, mark ∈ marks → ∀ rest : List Char,
          ∀ first ∈ (mark :: rest).head?, first ∈ marks := by
        intro mark among rest first member
        cases member
        exact among
      have text : (instruction.slotText .memory).toList =
          (Numeral.ofInt instruction.immediate.toInt).toList ++
              Lexeme.text .openParenthesis ++
            (fieldText instruction.rs).toList ++
              Lexeme.text .closeParenthesis := by
        simp [slotText, Lexeme.text]
      rw [text]
      refine Lexeme.Written.append_of_marked ?_ closed
        (marked (by decide) _)
      refine Lexeme.Written.append_of_marked
        (immediate.append_of_marked opened (marked (by decide) _))
        (written_fieldText instruction.rs) ?_
      rw [fieldText, String.toList_append]
      exact marked (by decide) _

/-- The lexemes of a slot stand for its operand. -/
theorem tokenKind_slotLexemes (valid : instruction.RegisterAt slot) :
    List.Forall₂ (fun lexeme kind => Lexeme.tokenKind true lexeme = .ok kind)
      (instruction.slotLexemes slot)
      (instruction.slotOperand slot).tokenKinds := by
  have field : ∀ {field}, IsRegisterIndex field →
      List.Forall₂ (fun lexeme kind => Lexeme.tokenKind true lexeme = .ok kind)
        (fieldLexemes field) [.register field.toUInt8] := by
    intro field valid
    obtain ⟨name, lexemes, means⟩ :=
      fieldLexemes_of_isRegisterIndex valid true
    rw [lexemes]
    exact .cons means .nil
  have immediate := tokenKind_immediateLexeme instruction.immediate true
  cases slot with
  | rd | rs | rt => exact field valid
  | immediate | shiftAmount | branchTarget | jumpTarget =>
      exact .cons immediate .nil
  | memory =>
      exact .cons immediate (.cons rfl
        (List.rel_append (field valid) (.cons rfl .nil)))

/-- An instruction holds in a slot what its operand there denotes. -/
theorem holds_slotOperand {labels : LabelTable} {address : Nat}
    (shift : slot = .shiftAmount → 0 ≤ instruction.immediate ∧
      instruction.immediate ≤ largestShift) :
    Holds labels address instruction slot (instruction.slotOperand slot) := by
  cases slot with
  | rd => exact .rd (by simp)
  | rs => exact .rs (by simp)
  | rt => exact .rt (by simp)
  | immediate => exact .immediate rfl
  | shiftAmount => exact .shiftAmount rfl (shift rfl)
  | branchTarget => exact .branchNumber rfl
  | jumpTarget => exact .jumpNumber rfl
  | memory => exact .memory (by simp) rfl

/-! ## Whole instructions -/

/-- What a text can say of an instruction: its registers exist, a shift amount
is within a word, and its label is a name. -/
structure Expressible (instruction : Instruction) : Prop where
  registers : instruction.NamesRegisters
  shift : .shiftAmount ∈ instruction.shape.slots →
    0 ≤ instruction.immediate ∧ instruction.immediate ≤ largestShift
  label : ∀ name, instruction.label? = some name → isName name.toList = true

/-- The lexemes of the operands of an instruction. -/
def operandLexemes (instruction : Instruction) : List Lexeme :=
  instruction.shape.slots.flatMap instruction.slotLexemes

/-- The lexemes of an instruction with its label. -/
def lexemes (instruction : Instruction) : List Lexeme :=
  instruction.label?.toList.map (fun name => .label name.toList) ++
    .word instruction.opcode.mnemonic.toList :: instruction.operandLexemes

theorem written_disassembly (instruction : Instruction) :
    Lexeme.Written instruction.disassembly.toList
      (.word instruction.opcode.mnemonic.toList ::
        instruction.operandLexemes) := by
  have proper : Lexeme.isProper (.word instruction.opcode.mnemonic.toList) =
      true :=
    instruction.opcode.isName_mnemonic
  have mnemonic := Lexeme.Written.single proper
  have operands : Lexeme.Written
      ([',', ' '].intercalate (instruction.shape.slots.map
        (fun slot => (instruction.slotText slot).toList)))
      instruction.operandLexemes :=
    .intercalate (fun slot _ => instruction.written_slotText slot)
  unfold disassembly
  unfold operandLexemes at operands ⊢
  cases slots : instruction.shape.slots with
  | nil => exact mnemonic
  | cons first rest =>
      rw [slots] at operands
      have text :
          (instruction.opcode.mnemonic ++ " " ++
            ", ".intercalate ((first :: rest).map instruction.slotText)).toList =
          instruction.opcode.mnemonic.toList ++
            ' ' :: [',', ' '].intercalate ((first :: rest).map
              (fun slot => (instruction.slotText slot).toList)) := by
        simp [String.toList_intercalate, Function.comp_def]
      dsimp only
      rw [text]
      refine mnemonic.append (.separator rfl operands) ?_
      rintro character ⟨⟩
      rfl

/-- The text of an instruction is cut into its lexemes. -/
theorem written_text (expressible : instruction.Expressible) :
    Lexeme.Written instruction.text.toList instruction.lexemes := by
  have written := instruction.written_disassembly
  have named := expressible.label
  unfold text lexemes
  cases labelled : instruction.label? with
  | none => exact written
  | some label =>
      have text : (label ++ ": " ++ instruction.disassembly).toList =
          Lexeme.text (.label label.toList) ++
            ' ' :: instruction.disassembly.toList := by
        simp [Lexeme.text]
      rw [text]
      exact .lexeme (named label labelled) (fun _ _ => rfl)
        (.separator rfl written)

/-- A stray character in the text of a slot is a question mark, which stands
for a register that there is not. -/
theorem stray_mem_slotLexemes {character : Char}
    (stray : .stray character ∈ instruction.slotLexemes slot) :
    character = '?' ∧ ¬ instruction.RegisterAt slot := by
  have field : ∀ {field}, .stray character ∈ fieldLexemes field →
      character = '?' ∧ ¬ IsRegisterIndex field := by
    intro field stray
    by_cases valid : IsRegisterIndex field
    · obtain ⟨name, lexemes, _⟩ := fieldLexemes_of_isRegisterIndex valid true
      simp [lexemes] at stray
    · rw [fieldLexemes_of_not_isRegisterIndex valid] at stray
      exact ⟨by simpa using stray, valid⟩
  cases slot with
  | rd | rs | rt => exact field stray
  | memory =>
      refine field ?_
      simpa [slotLexemes, immediateLexeme] using stray
  | immediate | shiftAmount | branchTarget | jumpTarget =>
      simp [slotLexemes, immediateLexeme] at stray

theorem exists_slot_of_stray_mem {character : Char}
    (stray : .stray character ∈ instruction.lexemes) :
    ∃ slot ∈ instruction.shape.slots,
      .stray character ∈ instruction.slotLexemes slot := by
  unfold lexemes operandLexemes at stray
  simpa using stray

/-- The text of an instruction holds neither a line break nor a comment mark,
nor anything else that belongs to no lexeme. -/
theorem not_mem_text (expressible : instruction.Expressible) {character : Char}
    (foreign : Lexeme.isForeign character = true) :
    character ∉ instruction.text.toList := by
  intro member
  have noStray : .stray character ∉ instruction.lexemes := by
    intro stray
    obtain ⟨slot, among, stray⟩ := exists_slot_of_stray_mem stray
    exact (stray_mem_slotLexemes stray).2
      (expressible.registers.registerAt among)
  have ordinary := (written_text expressible).not_isForeign noStray member
  rw [foreign] at ordinary
  contradiction

/-- The operands of an instruction, slot by slot. -/
def operands (instruction : Instruction) : List Operand :=
  instruction.shape.slots.map instruction.slotOperand

/-- The statements that an instruction with its label is written as. -/
def statements (instruction : Instruction) (line : Nat)
    (operandTokens : List Token) : List Statement :=
  instruction.label?.toList.map (fun name => .label name line) ++
    [.instruction instruction.opcode.mnemonic line operandTokens]

/-- The lexemes of the operands stand for the operands. -/
theorem tokenKind_operandLexemes (names : instruction.NamesRegisters) :
    List.Forall₂ (fun lexeme kind => Lexeme.tokenKind true lexeme = .ok kind)
      instruction.operandLexemes
      (instruction.operands.flatMap Operand.tokenKinds) := by
  have valid : ∀ slot ∈ instruction.shape.slots, instruction.RegisterAt slot :=
    fun _ among => names.registerAt among
  unfold operandLexemes operands
  generalize instruction.shape.slots = slots at valid ⊢
  induction slots with
  | nil => exact .nil
  | cons slot slots inductionHypothesis =>
      rw [List.flatMap_cons, List.map_cons, List.flatMap_cons]
      exact List.rel_append (tokenKind_slotLexemes (valid slot (by simp)))
        (inductionHypothesis
          (fun other member => valid other (List.mem_cons_of_mem _ member)))

/-- The lexemes of an instruction without its label stand for tokens that make
up one statement. -/
theorem exists_statement (names : instruction.NamesRegisters) (line : Nat) :
    ∃ tokens operandTokens,
      Lexeme.StandFor line false
        (.word instruction.opcode.mnemonic.toList ::
          instruction.operandLexemes) tokens ∧
      Statement.MadeOf tokens
        [.instruction instruction.opcode.mnemonic line operandTokens] ∧
      operandTokens.map Token.kind =
        instruction.operands.flatMap Operand.tokenKinds := by
  obtain ⟨operandTokens, standFor, kinds, onLine⟩ :=
    Lexeme.exists_standFor_of_kinds line (tokenKind_operandLexemes names)
  have belong : ∀ operand ∈ operandTokens,
      Statement.isOperandOn line operand = true := by
    intro token member
    have kind := List.mem_map_of_mem (f := Token.kind) member
    rw [kinds] at kind
    obtain ⟨operand, _, among⟩ := List.mem_flatMap.mp kind
    exact Statement.isOperandOn_iff.mpr
      ⟨onLine token member, Operand.not_startsStatement among⟩
  have made : Statement.MadeOf
      (⟨.mnemonic instruction.opcode.mnemonic,
        String.ofList instruction.opcode.mnemonic.toList, line⟩ ::
          (operandTokens ++ []))
      [.instruction instruction.opcode.mnemonic line operandTokens] :=
    .instruction rfl belong .nil
  rw [List.append_nil] at made
  exact ⟨_, operandTokens,
    .cons instruction.opcode.tokenKind_mnemonic standFor, made, kinds⟩

/-- The lexemes of an instruction stand for tokens that make up its
statements. -/
theorem exists_statements (names : instruction.NamesRegisters) (line : Nat) :
    ∃ tokens operandTokens,
      Lexeme.StandFor line false instruction.lexemes tokens ∧
      Statement.MadeOf tokens (instruction.statements line operandTokens) ∧
      operandTokens.map Token.kind =
        instruction.operands.flatMap Operand.tokenKinds := by
  obtain ⟨tokens, operandTokens, standFor, made, kinds⟩ :=
    exists_statement names line
  unfold lexemes statements
  cases instruction.label? with
  | none => exact ⟨tokens, operandTokens, standFor, made, kinds⟩
  | some label =>
      refine ⟨_, operandTokens, .cons rfl standFor, ?_, kinds⟩
      exact .label (congrArg TokenKind.label String.ofList_toList) made

/-- **Reading back.**  The statements of an instruction denote its plain form,
on the line and with the label that they are read with. -/
theorem denoted_plain
    (shift : .shiftAmount ∈ instruction.shape.slots →
      0 ≤ instruction.immediate ∧ instruction.immediate ≤ largestShift)
    {labels : LabelTable} {address line : Nat} {operandTokens : List Token}
    (kinds : operandTokens.map Token.kind =
      instruction.operands.flatMap Operand.tokenKinds) :
    Denoted labels address instruction.opcode.mnemonic line operandTokens
      { instruction.plain with
        line := line
        label? := labels.nameAt? address } := by
  obtain ⟨sameOpcode, _, _⟩ := instruction.plain_frame
  refine ⟨?_, rfl, rfl, ?_, instruction.operands, ?_, ?_⟩
  · rw [Opcode.ofMnemonic?_mnemonic]
    exact congrArg some sameOpcode.symm
  · rw [plain_plain]
  · rw [kinds]
    exact Operand.written_tokenKinds _
  · unfold shape operands
    dsimp only
    rw [sameOpcode]
    refine List.forall₂_map_right_iff.mpr (List.forall₂_same.mpr ?_)
    intro slot among
    have held : Holds labels address instruction slot
        (instruction.slotOperand slot) :=
      holds_slotOperand (fun shifts => shift (shifts ▸ among))
    refine held.of_agreeAt ?_
    have agree := plain_agreeAt among
    cases slot <;> exact agree

end Instruction

end MiniMips
