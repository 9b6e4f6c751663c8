import MiniMips.Proofs.Assembly.Diagnosis
import MiniMips.Proofs.Assembly.LineByLine
import MiniMips.Proofs.Assembly.LineNumbers
import MiniMips.Proofs.Assembly.Spelling

/-!
Contract: the lines of instructions.

Owns:
- that the lines of mnemonics increase, since no line has two of them;
- the mnemonic of every instruction, and where it stands in the source.
-/

namespace MiniMips

variable {source : String} {tokens : List Token} {token : Token}
  {index : Nat} {program : Program} {instruction : Instruction}
  {assembled : Assembled}

/-! ## Tokens -/

theorem Token.mnemonicCount_onLine_le (reads : lex source = .ok tokens)
    (line : Nat) : mnemonicCount (onLine line tokens) ≤ 1 := by
  obtain ⟨_, _, standFor⟩ := exists_standFor_of_lex reads line
  exact standFor.mnemonicCount_le

/-- Where lines do not decrease and none has two mnemonics, the lines of the
mnemonics increase. -/
theorem Token.pairwise_filter_isMnemonic
    (ordered : tokens.Pairwise (fun token next => token.line ≤ next.line))
    (single : ∀ line, mnemonicCount (onLine line tokens) ≤ 1) :
    (tokens.filter isMnemonic).Pairwise
      (fun token next => token.line < next.line) := by
  induction tokens with
  | nil => exact .nil
  | cons token tokens inductionHypothesis =>
      obtain ⟨notBefore, ordered⟩ := List.pairwise_cons.mp ordered
      have others : ∀ line, mnemonicCount (onLine line tokens) ≤ 1 :=
        fun line => Nat.le_trans
          (((List.sublist_cons_self token tokens).filter _).countP_le)
          (single line)
      have rest := inductionHypothesis ordered others
      by_cases isMnemonic : token.isMnemonic = true
      · rw [List.filter_cons_of_pos isMnemonic]
        refine .cons (fun next member => ?_) rest
        obtain ⟨among, nextMnemonic⟩ := List.mem_filter.mp member
        refine Nat.lt_of_le_of_ne (notBefore next among) fun sameLine => ?_
        -- Both mnemonics would stand on one line.
        have second : 0 < mnemonicCount (onLine token.line tokens) :=
          List.countP_pos_iff.mpr
            ⟨next, mem_onLine.mpr ⟨among, sameLine.symm⟩, nextMnemonic⟩
        have both := single token.line
        rw [onLine_cons_self, mnemonicCount_cons, if_pos isMnemonic] at both
        omega
      · rw [List.filter_cons_of_neg isMnemonic]
        exact rest

/-- A token stands on its line of the source, whose line endings are not counted
as text. -/
theorem exists_line_of_token (reads : lex source = .ok tokens)
    (member : token ∈ tokens) :
    1 ≤ token.line ∧
      ∃ text front back,
        (endedLines (linesOfText source.toList))[token.line - 1]? =
            some text ∧
          codeOfLine text = front ++ (token.text.toList ++ back) := by
  rw [lex, ← tokensOfLines_endedLines] at reads
  obtain ⟨inLines, each⟩ := tokensOfLines_eq_ok_iff_onLine.mp reads
  obtain ⟨least, bound⟩ := inLines.within token member
  have inside :
      token.line - 1 < (endedLines (linesOfText source.toList)).length := by
    omega
  have present := List.getElem?_eq_getElem inside
  have readsLine := each _ _ present
  rw [Nat.add_sub_cancel' least] at readsLine
  obtain ⟨before, after, cut⟩ :=
    List.append_of_mem (Token.mem_onLine.mpr ⟨member, rfl⟩)
  rw [cut] at readsLine
  obtain ⟨front, back, spelled, _⟩ := exists_place_of_tokensOfLine readsLine
  exact ⟨least, _, front, back, present, spelled⟩

/-! ## Instructions -/

/-- Every instruction is that of the mnemonic with its number, and has its
line. -/
theorem Program.exists_mnemonic_of_present
    (accepts : ofTokens tokens = .ok program)
    (present : program.instructions[index]? = some instruction) :
    ∃ before token after name, tokens = before ++ token :: after ∧
      token.kind = .mnemonic name ∧ Token.mnemonicCount before = index ∧
      token.line = instruction.line ∧
      Opcode.ofMnemonic? name.toList = some instruction.opcode := by
  cases verdict_of_ok accepts with
  | program _ _ isDenoted =>
      have inside : index < Token.mnemonicCount tokens := by
        rw [← isDenoted.size]
        exact (Array.getElem?_eq_some_iff.mp present).1
      obtain ⟨before, token, after, whole, isMnemonic, rfl⟩ :=
        Token.exists_mnemonic inside
      obtain ⟨denoted, found, name, _, names, _, decodes⟩ :=
        isDenoted.decodes before token after whole isMnemonic
      cases found.symm.trans present
      have denotes := Instruction.decode_eq_ok_iff.mp decodes
      exact ⟨before, token, after, name, whole, names, rfl,
        denotes.line.symm, denotes.opcode⟩

theorem pairwise_lines_of_assemble
    (assembles : assemble source = .ok assembled) :
    assembled.program.instructions.toList.Pairwise
      (fun instruction next => instruction.line < next.line) := by
  obtain ⟨reads, accepts⟩ := assemble_eq_ok_iff.mp assembles
  have increasing := Token.pairwise_filter_isMnemonic
    (lex_eq_ok_iff_onLine.mp reads).1.ordered
    (Token.mnemonicCount_onLine_le reads)
  rw [← @List.pairwise_map _ _ Instruction.line (· < ·),
    (Program.lines_of_ofTokens accepts).1, List.pairwise_map]
  exact increasing

/-- The mnemonic of an instruction stands on its line of the source. -/
theorem exists_line_of_instruction
    (assembles : assemble source = .ok assembled)
    (present : assembled.program.instructions[index]? = some instruction) :
    1 ≤ instruction.line ∧
      ∃ before token after text front back,
        assembled.tokens = before ++ token :: after ∧
        token.isMnemonic = true ∧ Token.mnemonicCount before = index ∧
        token.line = instruction.line ∧
        (endedLines (linesOfText source.toList))[instruction.line - 1]? =
          some text ∧
        codeOfLine text = front ++ (token.text.toList ++ back) ∧
        Opcode.ofMnemonic? token.text.toList = some instruction.opcode := by
  obtain ⟨reads, accepts⟩ := assemble_eq_ok_iff.mp assembles
  obtain ⟨before, token, after, name, whole, names, counted, sameLine, opcode⟩ :=
    Program.exists_mnemonic_of_present accepts present
  have member : token ∈ assembled.tokens := by simp [whole]
  obtain ⟨least, text, front, back, line, spelled⟩ :=
    exists_line_of_token reads member
  have written : Opcode.ofMnemonic? token.text.toList =
      some instruction.opcode := by
    obtain ⟨lexeme, proper, spelling, seen, means⟩ :=
      exists_lexeme_of_lex reads member
    have spells := means.spells proper
    rw [names, ← spelling] at spells
    rw [← opcode, spells.2, String.toList_ofList,
      Opcode.ofMnemonic?_map_toLower]
  rw [sameLine] at least line
  exact ⟨least, before, token, after, text, front, back, whole,
    Token.isMnemonic_of_kind names, counted, sameLine, line, spelled, written⟩

/-- An instruction is the only one on its line. -/
theorem index_eq_of_line_eq (assembles : assemble source = .ok assembled)
    {other : Nat} {otherInstruction : Instruction}
    (present : assembled.program.instructions[index]? = some instruction)
    (presentOther :
      assembled.program.instructions[other]? = some otherInstruction)
    (sameLine : otherInstruction.line = instruction.line) : other = index := by
  have increasing := List.pairwise_iff_getElem.mp
    (pairwise_lines_of_assemble assembles)
  rw [← Array.getElem?_toList] at present presentOther
  obtain ⟨inside, rfl⟩ := List.getElem?_eq_some_iff.mp present
  obtain ⟨insideOther, rfl⟩ := List.getElem?_eq_some_iff.mp presentOther
  rcases Nat.lt_trichotomy other index with less | same | more
  · exact absurd sameLine
      (Nat.ne_of_lt (increasing other index insideOther inside less))
  · exact same
  · exact absurd sameLine.symm
      (Nat.ne_of_lt (increasing index other inside insideOther more))

end MiniMips
