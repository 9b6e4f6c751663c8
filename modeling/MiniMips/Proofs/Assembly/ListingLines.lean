import MiniMips.Proofs.Assembly.Display
import MiniMips.Proofs.Assembly.Spelling
import MiniMips.Proofs.Column

/-!
Contract: what the lines of listings tell.

Owns:
- that the line of a token tells the token;
- that the line of an instruction tells its address, its source line and its
  text, and that the text tells the operation, its operands and the label;
- that no line is broken.

A line is cut into its columns from left to right.  A column that is padded on
its right ends at the first blank, so its text must hold none: the names and
numbers of a source do not.
-/

namespace MiniMips

variable {source otherSource text : String} {character : Char}
  {tokens otherTokens : List Token} {assembled other : Assembled}

/-! ## Tokens -/

namespace TokenKind

variable {kind : TokenKind}

/-- No two kinds and values are shown alike. -/
theorem text_injective : Function.Injective TokenKind.text := by
  intro kind other same
  -- Kinds that differ are told apart by their first two letters.
  have characters := congrArg String.toList same
  cases kind <;> cases other <;> simp [TokenKind.text] at characters ⊢
  case label.label | mnemonic.mnemonic | symbol.symbol =>
    exact String.toList_inj.mp characters
  case register.register =>
    have numbers := Numeral.ofNat_injective (String.toList_inj.mp characters)
    exact UInt8.toNat_inj.mp numbers
  case immediate.immediate =>
    have numbers := Numeral.ofInt_injective (String.toList_inj.mp characters)
    exact Int32.toInt_inj.mp numbers

/-- Characters of which kinds and values are shown. -/
def isShownCharacter (character : Char) : Bool :=
  isNameCharacter character || ['(', ')', '-'].contains character

theorem all_isShownCharacter {characters : List Char}
    (named : ∀ character ∈ characters, isNameCharacter character = true) :
    characters.all isShownCharacter = true := by
  refine List.all_eq_true.mpr fun character member => ?_
  rw [isShownCharacter, named character member]
  rfl

theorem all_isShownCharacter_decimalDigits (value : Nat) :
    (Numeral.decimalDigits value).all isShownCharacter = true :=
  all_isShownCharacter fun _ member =>
    Lexeme.isNameCharacter_of_isLiteralCharacter
      (Numeral.isLiteralCharacter_of_mem_decimalDigits member)

theorem all_isShownCharacter_ofInt (value : Int) :
    (Numeral.ofInt value).toList.all isShownCharacter = true := by
  rw [Numeral.toList_ofInt]
  cases value with
  | ofNat magnitude => exact all_isShownCharacter_decimalDigits magnitude
  | negSucc predecessor =>
      exact all_isShownCharacter_decimalDigits (predecessor + 1)

/-- The kinds of tokens that can be read are shown without blanks and line
breaks. -/
theorem Spells.all_text (spells : kind.Spells text) :
    kind.text.toList.all isShownCharacter = true := by
  have framed : ∀ front middle : List Char,
      front.all isShownCharacter = true →
      middle.all isShownCharacter = true →
      (front ++ middle ++ [')']).all isShownCharacter = true := by
    intro front middle shownFront shown
    rw [List.all_append, List.all_append, shownFront, shown]
    rfl
  cases kind with
  | label name | mnemonic name | symbol name =>
      have shown : name.toList.all isShownCharacter = true :=
        all_isShownCharacter
          (fun _ => Lexeme.isNameCharacter_of_isName spells.1)
      rw [TokenKind.text, String.toList_append, String.toList_append]
      exact framed _ _ (by decide) shown
  | register index =>
      rw [TokenKind.text, String.toList_append, String.toList_append,
        Numeral.toList_ofNat]
      exact framed _ _ (by decide) (all_isShownCharacter_decimalDigits _)
  | immediate value =>
      rw [TokenKind.text, String.toList_append, String.toList_append]
      exact framed _ _ (by decide) (all_isShownCharacter_ofInt _)
  | openParenthesis | closeParenthesis => decide

theorem Spells.not_mem_text (spells : kind.Spells text)
    (hidden : isShownCharacter character = false) :
    character ∉ kind.text.toList := by
  intro member
  rw [List.all_eq_true.mp spells.all_text character member] at hidden
  contradiction

end TokenKind

namespace Token

variable {token other : Token}

theorem toList_listingText (token : Token) :
    token.listingText.toList =
      (Column.alignRight 4 (Numeral.ofNat token.line)).toList ++
        ' ' :: ' ' :: ((Column.alignLeft 20 token.kind.text).toList ++
          ' ' :: token.text.toList) := by
  simp [listingText]

/-- The line of a token tells its line, its kind and its text, unless there are
blanks in its kind. -/
theorem eq_of_listingText_eq (solid : ' ' ∉ token.kind.text.toList)
    (otherSolid : ' ' ∉ other.kind.text.toList)
    (same : token.listingText.toList = other.listingText.toList) :
    token = other := by
  rw [toList_listingText, toList_listingText] at same
  obtain ⟨sameLine, afterLine⟩ :=
    Column.alignRight_ofNat_append_inj (by decide) same
  obtain ⟨sameKind, sameText⟩ := Column.alignLeft_append_inj solid otherSolid
    (List.cons.inj afterLine).2
  cases token
  cases other
  rw [Token.mk.injEq]
  exact ⟨TokenKind.text_injective sameKind, String.toList_inj.mp sameText,
    sameLine⟩

/-- The kind and the text of a token that was read can be shown in a line. -/
theorem spells_of_lex (reads : lex source = .ok tokens)
    (member : token ∈ tokens) :
    token.kind.Spells token.text ∧ '\n' ∉ token.text.toList := by
  obtain ⟨lexeme, proper, spelled, _, means⟩ :=
    exists_lexeme_of_lex reads member
  rw [spelled, String.toList_ofList]
  exact ⟨means.spells proper,
    fun broken => (means.legible proper '\n' broken).1 rfl⟩

theorem newline_not_mem_listingText (reads : lex source = .ok tokens)
    (member : token ∈ tokens) : '\n' ∉ token.listingText.toList := by
  obtain ⟨spells, unbroken⟩ := spells_of_lex reads member
  have inLine := Column.newline_not_mem_alignRight
    (Numeral.not_mem_ofNat rfl token.line) 4
  have inKind := Column.newline_not_mem_alignLeft
    (spells.not_mem_text rfl) 20
  simp [toList_listingText, inLine, inKind, unbroken]

/-- **Token lines.**  The lines of the tokens of a source tell the tokens. -/
theorem eq_of_map_listingText_eq (reads : lex source = .ok tokens)
    (otherReads : lex otherSource = .ok otherTokens)
    (same : tokens.map (·.listingText.toList) =
      otherTokens.map (·.listingText.toList)) : tokens = otherTokens := by
  have solid : ∀ {source tokens}, lex source = .ok tokens →
      ∀ token ∈ tokens, ' ' ∉ token.kind.text.toList :=
    fun reads _ member => (spells_of_lex reads member).1.not_mem_text rfl
  refine eq_of_map_eq_map (fun token member other otherMember sameLine => ?_)
    same
  exact eq_of_listingText_eq (solid reads token member)
    (solid otherReads other otherMember) sameLine

end Token

/-! ## Instructions -/

namespace Instruction

variable {instruction other : Instruction} {address otherAddress : Nat}

/-- The line of an instruction without the line break that ends it. -/
def listingLine (address : Nat) (instruction : Instruction) : List Char :=
  (instruction.listingText address).toList.dropLast

theorem toList_listingText (address : Nat) (instruction : Instruction) :
    (instruction.listingText address).toList =
      instruction.listingLine address ++ ['\n'] := by
  rw [listingLine, listingText, String.toList_append]
  exact (congrArg (· ++ ['\n']) List.dropLast_concat).symm

theorem listingLine_eq (address : Nat) (instruction : Instruction) :
    instruction.listingLine address =
      (Column.alignRight 4 (Numeral.ofNat address)).toList ++
        ' ' :: ([' ', '['] ++
          ((Column.alignRight 2
              (Numeral.ofNat instruction.opcode.code)).toList ++
            ']' :: (" line ".toList ++
              ((Column.alignLeft 4 (Numeral.ofNat instruction.line)).toList ++
                ' ' :: instruction.text.toList)))) := by
  have whole := toList_listingText address instruction
  refine List.append_cancel_right (whole.symm.trans ?_)
  simp [listingText]

/-- The line of an instruction tells its address, its source line and its
text. -/
theorem eq_of_listingLine_eq
    (same : instruction.listingLine address =
      other.listingLine otherAddress) :
    address = otherAddress ∧ instruction.line = other.line ∧
      instruction.text = other.text := by
  have solid : ∀ value, ' ' ∉ (Numeral.ofNat value).toList :=
    Numeral.not_mem_ofNat rfl
  rw [listingLine_eq, listingLine_eq] at same
  obtain ⟨sameAddress, afterAddress⟩ :=
    Column.alignRight_ofNat_append_inj (by decide) same
  obtain ⟨_, afterCode⟩ := Column.alignRight_ofNat_append_inj (by decide)
    (List.append_cancel_left afterAddress)
  obtain ⟨sameLine, afterLine⟩ := Column.alignLeft_append_inj (solid _)
    (solid _) (List.append_cancel_left afterCode)
  exact ⟨sameAddress, Numeral.ofNat_injective sameLine,
    String.toList_inj.mp afterLine⟩

theorem newline_not_mem_listingLine (expressible : instruction.Expressible)
    (address : Nat) : '\n' ∉ instruction.listingLine address := by
  have inText : '\n' ∉ instruction.text.toList := not_mem_text expressible rfl
  have inAddress := Column.newline_not_mem_alignRight
    (Numeral.not_mem_ofNat rfl address) 4
  have inCode := Column.newline_not_mem_alignRight
    (Numeral.not_mem_ofNat rfl instruction.opcode.code) 2
  have inLine := Column.newline_not_mem_alignLeft
    (Numeral.not_mem_ofNat rfl instruction.line) 4
  simp [listingLine_eq, inAddress, inCode, inLine, inText]

/-- Operands in the same slots say that the same is held there. -/
theorem agreeAt_of_slotOperand_eq {slot : OperandSlot}
    (same : instruction.slotOperand slot = other.slotOperand slot) :
    instruction.AgreeAt other slot := by
  have field : ∀ {left right : Int8},
      left.toUInt8 = right.toUInt8 → left = right := by
    intro left right sameByte
    simpa using congrArg UInt8.toInt8 sameByte
  cases slot with
  | rd | rs | rt => exact field (Operand.register.inj same)
  | immediate | shiftAmount | branchTarget | jumpTarget =>
      exact Operand.immediate.inj same
  | memory =>
      obtain ⟨sameOffset, sameBase⟩ := Operand.memory.inj same
      exact ⟨field sameBase, sameOffset⟩

/-- Lexemes of operands tell the operands. -/
theorem operands_eq_of_operandLexemes_eq (names : instruction.NamesRegisters)
    (otherNames : other.NamesRegisters)
    (same : instruction.operandLexemes = other.operandLexemes) :
    instruction.operands = other.operands := by
  have kinds := tokenKind_operandLexemes names
  rw [same] at kinds
  have sameKinds := List.right_unique_forall₂' (fun _ _ _ first second =>
    Except.ok.inj (first.symm.trans second)) kinds
      (tokenKind_operandLexemes otherNames)
  have written := Operand.written_tokenKinds instruction.operands
  rw [sameKinds] at written
  have grouped := Operand.ofKinds?_eq_some_iff.mpr written
  rw [Operand.ofKinds?_eq_some_iff.mpr
    (Operand.written_tokenKinds other.operands)] at grouped
  exact (Option.some.inj grouped).symm

theorem lexemes_inj (same : instruction.lexemes = other.lexemes) :
    instruction.label? = other.label? ∧
      instruction.opcode.mnemonic = other.opcode.mnemonic ∧
      instruction.operandLexemes = other.operandLexemes := by
  unfold lexemes at same
  cases labelled : instruction.label? with
  | none =>
      cases otherLabelled : other.label? with
      | none => simpa [labelled, otherLabelled, String.toList_inj] using same
      | some otherName => simp [labelled, otherLabelled] at same
  | some name =>
      cases otherLabelled : other.label? with
      | none => simp [labelled, otherLabelled] at same
      | some otherName =>
          simpa [labelled, otherLabelled, String.toList_inj] using same

/-- The text of an instruction tells its label and its operation with the
operands. -/
theorem eq_of_text_eq (expressible : instruction.Expressible)
    (otherExpressible : other.Expressible)
    (same : instruction.text = other.text) :
    instruction.label? = other.label? ∧ instruction.opcode = other.opcode ∧
      instruction.operands = other.operands := by
  have sameLexemes : instruction.lexemes = other.lexemes := by
    rw [← Lexeme.split_eq_iff.mpr (written_text expressible),
      ← Lexeme.split_eq_iff.mpr (written_text otherExpressible), same]
  obtain ⟨sameLabel, sameMnemonic, sameOperands⟩ := lexemes_inj sameLexemes
  have sameOpcode := instruction.opcode.ofMnemonic?_mnemonic
  rw [sameMnemonic, Opcode.ofMnemonic?_mnemonic] at sameOpcode
  exact ⟨sameLabel, (Option.some.inj sameOpcode).symm,
    operands_eq_of_operandLexemes_eq expressible.registers
      otherExpressible.registers sameOperands⟩

/-- Instructions of the same line and text that are blank where their operation
has no operands are the same. -/
theorem eq_of_text_and_line_eq (expressible : instruction.Expressible)
    (otherExpressible : other.Expressible)
    (blank : { instruction.plain with label? := instruction.label? } =
      instruction)
    (otherBlank : { other.plain with label? := other.label? } = other)
    (sameText : instruction.text = other.text)
    (sameLine : instruction.line = other.line) : instruction = other := by
  obtain ⟨sameLabel, sameOpcode, sameOperands⟩ :=
    eq_of_text_eq expressible otherExpressible sameText
  have sameShape : instruction.shape = other.shape :=
    congrArg Opcode.shape sameOpcode
  unfold operands at sameOperands
  rw [← sameShape] at sameOperands
  have samePlain : instruction.plain = other.plain :=
    SameOperands.plain_eq ⟨sameOpcode, sameLine, fun slot member =>
      agreeAt_of_slotOperand_eq (List.map_inj_left.mp sameOperands slot member)⟩
  rw [← blank, ← otherBlank, samePlain, sameLabel]

end Instruction

namespace Program

/-- The lines of the listing of a program. -/
def listingLines (program : Program) : List (List Char) :=
  program.instructions.toList.mapIdx Instruction.listingLine

theorem toList_listing (program : Program) :
    program.listing.toList = program.listingLines.flatMap (· ++ ['\n']) := by
  unfold listing listingLines
  rw [String.toList_join, List.mapIdx_eq_zipIdx_map,
    List.mapIdx_eq_zipIdx_map, List.flatMap_map, List.flatMap_map]
  simp only [Instruction.toList_listingText]

theorem newline_not_mem_listingLines
    (assembles : assemble source = .ok assembled) :
    ∀ line ∈ assembled.program.listingLines, '\n' ∉ line := by
  obtain ⟨reads, accepts⟩ := assemble_eq_ok_iff.mp assembles
  intro line member
  obtain ⟨address, inside, rfl⟩ := List.mem_mapIdx.mp member
  exact Instruction.newline_not_mem_listingLine
    (expressible_of_lex reads accepts (List.getElem?_eq_getElem inside)) address

/-- **Instruction lines.**  The lines of the instructions of a source tell the
instructions. -/
theorem instructions_eq_of_listingLines_eq
    (assembles : assemble source = .ok assembled)
    (otherAssembles : assemble otherSource = .ok other)
    (same : assembled.program.listingLines = other.program.listingLines) :
    assembled.program.instructions = other.program.instructions := by
  obtain ⟨reads, accepts⟩ := assemble_eq_ok_iff.mp assembles
  obtain ⟨otherReads, otherAccepts⟩ := assemble_eq_ok_iff.mp otherAssembles
  unfold listingLines at same
  rw [List.mapIdx_eq_zipIdx_map, List.mapIdx_eq_zipIdx_map] at same
  have samePlaces : assembled.program.instructions.toList.zipIdx =
      other.program.instructions.toList.zipIdx := by
    refine eq_of_map_eq_map ?_ same
    rintro ⟨instruction, address⟩ member ⟨otherInstruction, otherAddress⟩
      otherMember sameLine
    have found := List.mem_zipIdx_iff_getElem?.mp member
    have otherFound := List.mem_zipIdx_iff_getElem?.mp otherMember
    obtain ⟨_, _, _, denoted⟩ := exists_denoted accepts found
    obtain ⟨_, _, _, otherDenoted⟩ := exists_denoted otherAccepts otherFound
    obtain ⟨sameAddress, sameSourceLine, sameText⟩ :=
      Instruction.eq_of_listingLine_eq sameLine
    refine Prod.ext ?_ sameAddress
    exact Instruction.eq_of_text_and_line_eq
      (expressible_of_lex reads accepts found)
      (expressible_of_lex otherReads otherAccepts otherFound) denoted.blank
      otherDenoted.blank sameText sameSourceLine
  have sameList := congrArg (List.map Prod.fst) samePlaces
  rw [List.zipIdx_map_fst, List.zipIdx_map_fst] at sameList
  exact Array.toList_inj.mp sameList

end Program

end MiniMips
