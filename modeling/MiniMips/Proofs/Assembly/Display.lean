import MiniMips.Proofs.Assembly.Disassembly
import MiniMips.Proofs.Assembly.Lines
import MiniMips.Proofs.Assembly.Programs

/-!
Contract: the text of a whole program read back.

Owns:
- the text of a program, one instruction to a line;
- the labels that such a text declares, which are those that instructions
  carry;
- that the text of an assembled program is assembled to the same instructions.

A program may have more labels than its text: of several labels at one address
only the first is shown, and none of those after the last instruction.  Its
branches do not depend on them, because they are shown as numbers.
-/

namespace MiniMips

/-- Lines that stand for tokens are a text that is read as these tokens. -/
theorem lex_intercalate {lines : List String} {tokens : List Token}
    (unbroken : ∀ line ∈ lines, '\n' ∉ line.toList)
    (standFor : LinesStandFor 1 (lines.map String.toList) tokens) :
    lex ("\n".intercalate lines) = .ok tokens := by
  unfold lex
  rw [String.toList_intercalate]
  cases lines with
  | nil =>
      -- The empty text has one line, which is empty.
      cases standFor
      have empty : Lexeme.Written (codeOfLine []) [] := .nil
      exact tokensOfLines_eq_ok_iff.mpr (.cons empty .nil .nil)
  | cons line lines =>
      have cut : linesOfText
          (['\n'].intercalate ((line :: lines).map String.toList)) =
            (line :: lines).map String.toList := by
        refine linesOfText_intercalate (by simp) ?_
        simpa using unbroken
      show tokensOfLines 1 (linesOfText (['\n'].intercalate _)) = _
      rw [cut]
      exact tokensOfLines_eq_ok_iff.mpr standFor

namespace Instruction

/-- The declaration that the text of an instruction makes, when the instruction
has the address `address` and is on the line after as many lines. -/
def entryAt? (instruction : Instruction) (address : Nat) : Option LabelEntry :=
  instruction.label?.map (fun name => ⟨name, address, address + 1⟩)

/-- The instruction that the text of an instruction at an address denotes. -/
def reread (labels : LabelTable) (instruction : Instruction) (address : Nat) :
    Instruction :=
  { instruction.plain with
    line := address + 1
    label? := labels.nameAt? address }

variable {instruction : Instruction} {instructions : List Instruction}

theorem declarations_statements (instruction : Instruction)
    (address : Nat) (operandTokens : List Token) :
    Statement.declarations address
        (instruction.statements (address + 1) operandTokens) =
      (instruction.entryAt? address).toList := by
  unfold statements entryAt?
  cases instruction.label? <;> rfl

theorem instructionCount_statements (instruction : Instruction) (line : Nat)
    (operandTokens : List Token) :
    Statement.instructionCount (instruction.statements line operandTokens) =
      1 := by
  unfold statements
  cases instruction.label? <;> rfl

theorem allDenoted_statements (labels : LabelTable) (address : Nat)
    (expressible : instruction.Expressible) {operandTokens : List Token}
    (kinds : operandTokens.map Token.kind =
      instruction.operands.flatMap Operand.tokenKinds) :
    AllDenoted labels address
      (instruction.statements (address + 1) operandTokens)
      [instruction.reread labels address] := by
  have denoted : AllDenoted labels address
      [.instruction instruction.opcode.mnemonic (address + 1) operandTokens]
      [instruction.reread labels address] :=
    .instruction (denoted_plain expressible.shift kinds) .nil
  unfold statements
  cases instruction.label? with
  | none => exact denoted
  | some name => exact .label denoted

/-- The lines of instructions stand for tokens that make up their statements,
which declare their labels and denote them again. -/
theorem exists_lines (address : Nat)
    (expressible : ∀ instruction ∈ instructions, instruction.Expressible) :
    ∃ tokens statements,
      LinesStandFor (address + 1)
        ((instructions.map text).map String.toList) tokens ∧
      Statement.MadeOf tokens statements ∧
      Statement.declarations address statements =
        (instructions.zipIdx address).filterMap
          (fun place => place.1.entryAt? place.2) ∧
      ∀ labels, AllDenoted labels address statements
        ((instructions.zipIdx address).map
          (fun place => place.1.reread labels place.2)) := by
  induction instructions generalizing address with
  | nil => exact ⟨[], [], .nil, .nil, rfl, fun _ => .nil⟩
  | cons instruction instructions inductionHypothesis =>
      obtain ⟨expressibleFirst, expressibleOthers⟩ :=
        List.forall_mem_cons.mp expressible
      obtain ⟨first, operandTokens, standFor, made, kinds⟩ :=
        exists_statements expressibleFirst.registers (address + 1)
      obtain ⟨others, statements, standForOthers, madeOthers, declared,
          denoted⟩ :=
        inductionHypothesis (address + 1) expressibleOthers
      have code : codeOfLine instruction.text.toList =
          instruction.text.toList :=
        codeOfLine_of_not_mem (not_mem_text expressibleFirst (by decide))
      have written := written_text expressibleFirst
      rw [← code] at written
      refine ⟨first ++ others, _, .cons written standFor standForOthers,
        made.append madeOthers, ?_, fun labels => ?_⟩
      · rw [Statement.declarations_append, declarations_statements,
          instructionCount_statements, declared, List.zipIdx_cons,
          List.filterMap_cons]
        cases instruction.entryAt? address <;> rfl
      · rw [List.zipIdx_cons, List.map_cons]
        refine allDenoted_append_iff.mpr ⟨_, _, rfl,
          allDenoted_statements labels address expressibleFirst kinds, ?_⟩
        rw [instructionCount_statements]
        exact denoted labels

end Instruction

namespace Program

/-- The text of a program: its instructions with their labels, one to a
line. -/
def text (program : Program) : String :=
  "\n".intercalate (program.instructions.toList.map Instruction.text)

/-- The labels that the text of a program declares. -/
def shownLabels (program : Program) : LabelTable where
  entries := program.instructions.toList.zipIdx.filterMap
    (fun place => place.1.entryAt? place.2)

variable {source : String} {tokens : List Token} {program : Program}
  {instruction : Instruction} {index : Nat} {name : String}

theorem exists_denoted (accepts : ofTokens tokens = .ok program)
    (found : program.instructions.toList[index]? = some instruction) :
    ∃ mnemonic line operands,
      Instruction.Denoted program.labels index mnemonic line operands
        instruction := by
  obtain ⟨statements, _, _, _, denoted⟩ := ofTokens_eq_ok_iff.mp accepts
  obtain ⟨mnemonic, line, operands, _, denotedHere⟩ :=
    denoted.exists_of_getElem? found
  rw [Nat.zero_add] at denotedHere
  exact ⟨mnemonic, line, operands, denotedHere⟩

/-- An instruction carries no label but one that is resolved to its address. -/
theorem resolve?_of_label? (accepts : ofTokens tokens = .ok program)
    (found : program.instructions.toList[index]? = some instruction)
    (labelled : instruction.label? = some name) :
    program.labels.resolve? name = some index := by
  obtain ⟨statements, _, _, distinct, _⟩ := ofTokens_eq_ok_iff.mp accepts
  obtain ⟨mnemonic, line, operands, denoted⟩ := exists_denoted accepts found
  rw [denoted.label] at labelled
  exact LabelTable.resolve?_of_nameAt? distinct labelled

/-- Whatever has been read from a text can be written in a text. -/
theorem expressible_of_lex (reads : lex source = .ok tokens)
    (accepts : ofTokens tokens = .ok program)
    (found : program.instructions.toList[index]? = some instruction) :
    instruction.Expressible := by
  obtain ⟨mnemonic, line, operands, denoted⟩ := exists_denoted accepts found
  refine ⟨?_, denoted.shift_inRange, fun name labelled => ?_⟩
  · exact namesRegisters accepts
      (fun token among index kind => register_lt_of_lex reads among kind)
      (Array.mem_toList_iff.mp (List.mem_of_getElem? found))
  · obtain ⟨following, before, token, after, rfl, declares, _⟩ :=
      (resolve?_eq_some_iff accepts).mp
        (resolve?_of_label? accepts found labelled)
    exact isName_of_lex reads (by simp) declares

theorem mem_shownLabels_iff {entry : LabelEntry} :
    entry ∈ program.shownLabels.entries ↔
      ∃ instruction,
        program.instructions.toList[entry.index]? = some instruction ∧
          instruction.entryAt? entry.index = some entry := by
  constructor
  · intro member
    obtain ⟨⟨instruction, index⟩, among, declares⟩ :=
      List.mem_filterMap.mp member
    have found := List.mem_zipIdx_iff_getElem?.mp among
    obtain ⟨name, _, rfl⟩ := Option.map_eq_some_iff.mp declares
    exact ⟨instruction, found, declares⟩
  · rintro ⟨instruction, found, declares⟩
    exact List.mem_filterMap.mpr ⟨(instruction, entry.index),
      List.mem_zipIdx_iff_getElem?.mpr found, declares⟩

/-- No label is shown twice, because instructions that carry the same label are
at the same address. -/
theorem distinct_shownLabels (accepts : ofTokens tokens = .ok program) :
    program.shownLabels.Distinct := by
  have apart : program.instructions.toList.zipIdx.Pairwise
      (fun place other => place.2 ≠ other.2) := by
    have positions := List.nodup_range' (s := 0)
      (n := program.instructions.toList.length) 1
    rw [← List.zipIdx_map_snd] at positions
    exact List.pairwise_map.mp positions
  unfold LabelTable.Distinct shownLabels List.Nodup
  rw [List.pairwise_map, List.pairwise_filterMap]
  refine apart.imp_of_mem ?_
  intro place other member memberOther different entry declares otherEntry
    declaresOther same
  obtain ⟨name, labelled, rfl⟩ := Option.map_eq_some_iff.mp declares
  obtain ⟨otherName, labelledOther, rfl⟩ :=
    Option.map_eq_some_iff.mp declaresOther
  have resolved := resolve?_of_label? accepts
    (List.mem_zipIdx_iff_getElem?.mp member) labelled
  have resolvedOther := resolve?_of_label? accepts
    (List.mem_zipIdx_iff_getElem?.mp memberOther) labelledOther
  have sameName : name = otherName := same
  rw [sameName, resolvedOther] at resolved
  exact different (Option.some.inj resolved).symm

/-- The label that is shown for an address is the one that the instruction
there carries. -/
theorem nameAt?_shownLabels
    (found : program.instructions.toList[index]? = some instruction) :
    program.shownLabels.nameAt? index = instruction.label? := by
  unfold LabelTable.nameAt?
  cases first : program.shownLabels.entries.find?
      (fun entry => decide (entry.index = index)) with
  | some entry =>
      have bound : entry.index = index := by
        simpa using List.find?_some first
      obtain ⟨other, foundOther, declares⟩ :=
        mem_shownLabels_iff.mp (List.mem_of_find?_eq_some first)
      rw [bound, found] at foundOther
      cases foundOther
      obtain ⟨name, labelled, same⟩ := Option.map_eq_some_iff.mp declares
      rw [labelled, ← same]
      rfl
  | none =>
      cases labelled : instruction.label? with
      | none => rfl
      | some name =>
          have declares : instruction.entryAt? index =
              some ⟨name, index, index + 1⟩ := by
            rw [Instruction.entryAt?, labelled]
            rfl
          have member : ⟨name, index, index + 1⟩ ∈
              program.shownLabels.entries :=
            mem_shownLabels_iff.mpr ⟨instruction, found, declares⟩
          have absent := List.find?_eq_none.mp first _ member
          simp at absent

/-- What an instruction of a program is read back as: itself, on another
line. -/
theorem reread_eq (accepts : ofTokens tokens = .ok program)
    (found : program.instructions.toList[index]? = some instruction) :
    instruction.reread program.shownLabels index =
      { instruction with line := index + 1 } := by
  obtain ⟨mnemonic, line, operands, denoted⟩ := exists_denoted accepts found
  rw [Instruction.reread, nameAt?_shownLabels found]
  conv => rhs; rw [← denoted.blank]

/-- **Display.**  The text of an assembled program is assembled to the same
instructions, each of which is on the line after as many lines as there are
instructions before it, and to the labels that the instructions carry. -/
theorem assemble_text (source : String) (assembled : Assembled)
    (assembles : assemble source = .ok assembled) :
    ∃ redone, assemble assembled.program.text = .ok redone ∧
      redone.program.instructions.toList =
        assembled.program.instructions.toList.zipIdx.map
          (fun place => { place.1 with line := place.2 + 1 }) ∧
      redone.program.labels.entries =
        assembled.program.instructions.toList.zipIdx.filterMap
          (fun place => place.1.label?.map
            (fun name => ⟨name, place.2, place.2 + 1⟩)) := by
  obtain ⟨reads, accepts⟩ := assemble_eq_ok_iff.mp assembles
  have expressible : ∀ instruction ∈ assembled.program.instructions.toList,
      instruction.Expressible := by
    intro instruction member
    obtain ⟨index, found⟩ := List.mem_iff_getElem?.mp member
    exact expressible_of_lex reads accepts found
  obtain ⟨tokens, statements, standFor, made, declared, denoted⟩ :=
    Instruction.exists_lines 0 expressible
  let labels := assembled.program.shownLabels
  let instructions := assembled.program.instructions.toList.zipIdx.map
    (fun place => place.1.reread labels place.2)
  have reads : lex assembled.program.text = .ok tokens := by
    refine lex_intercalate ?_ standFor
    intro line member
    obtain ⟨instruction, among, rfl⟩ := List.mem_map.mp member
    exact Instruction.not_mem_text (expressible instruction among) (by decide)
  have accepted : ofTokens tokens = .ok ⟨instructions.toArray, labels⟩ := by
    refine ofTokens_eq_ok_iff.mpr ⟨statements, made, ?_,
      distinct_shownLabels accepts, denoted labels⟩
    rw [← made.declarations_eq, declared]
    rfl
  refine ⟨⟨tokens, ⟨instructions.toArray, labels⟩⟩,
    assemble_eq_ok_iff.mpr ⟨reads, accepted⟩, ?_, rfl⟩
  refine List.map_congr_left fun place member => ?_
  exact reread_eq accepts (List.mem_zipIdx_iff_getElem?.mp member)

/-- A jump to the second of two labels at its own address: the first label is
shown, and the jump still goes to this address. -/
theorem assemble_text_jump :
    let jump := { Instruction.bare .j 1 with label? := some "a" }
    ∃ redone, assemble "a: j 0" = .ok redone ∧
      redone.program.instructions.toList = [jump] ∧
      redone.program.labels.entries = [⟨"a", 0, 1⟩] := by
  intro jump
  let assembled : Assembled :=
    ⟨[⟨.label "a", "a:", 1⟩, ⟨.label "b", "b:", 1⟩, ⟨.mnemonic "j", "j", 1⟩,
        ⟨.symbol "b", "b", 1⟩, ⟨.label "c", "c:", 3⟩],
      ⟨#[jump], ⟨[⟨"a", 0, 1⟩, ⟨"b", 0, 1⟩, ⟨"c", 1, 3⟩]⟩⟩⟩
  have assembles : assemble "a: b: j b\n\nc:" = .ok assembled := by
    decide +kernel
  have text : assembled.program.text = "a: j 0" := by
    decide +kernel
  obtain ⟨redone, reassembles, instructions, labels⟩ :=
    assemble_text _ assembled assembles
  rw [text] at reassembles
  exact ⟨redone, reassembles, instructions, labels⟩

end Program

end MiniMips
