import MiniMips.Proofs.Assembly.Decoding
import MiniMips.Proofs.Assembly.Labels
import MiniMips.Proofs.Assembly.Tokens

/-!
Contract: the program that a token list denotes.

Owns:
- the instructions that statements denote, as a relation, and that decoding
  computes it;
- joining and cutting denoted instructions, at the addresses they have;
- the program of a token list, put together from its statements, its
  declarations and the instructions they denote;
- labels of a program, looked up in the token list itself;
- that register numbers in tokens bound those in instructions, so that all
  fields of assembled instructions that are used name registers.
-/

namespace MiniMips

namespace Instruction

/-- Statements denote instructions, one for each instruction statement.  The
first of them has the address `address`. -/
inductive AllDenoted (labels : LabelTable) :
    Nat → List Statement → List Instruction → Prop where
  | nil {address : Nat} : AllDenoted labels address [] []
  | label {address : Nat} {name : String} {line : Nat}
      {statements : List Statement} {instructions : List Instruction}
      (others : AllDenoted labels address statements instructions) :
      AllDenoted labels address (.label name line :: statements) instructions
  | instruction {address : Nat} {mnemonic : String} {line : Nat}
      {operands : List Token} {instruction : Instruction}
      {statements : List Statement} {instructions : List Instruction}
      (denoted : Denoted labels address mnemonic line operands instruction)
      (others : AllDenoted labels (address + 1) statements instructions) :
      AllDenoted labels address
        (.instruction mnemonic line operands :: statements)
        (instruction :: instructions)

variable {labels : LabelTable} {address : Nat}
  {statements earlier later : List Statement}
  {instruction : Instruction} {instructions first second : List Instruction}

theorem ofStatements_eq_ok_iff :
    ofStatements labels address statements = .ok instructions ↔
      AllDenoted labels address statements instructions := by
  constructor
  · intro decodes
    fun_induction ofStatements labels address statements
      generalizing instructions with
    | case1 =>
        cases decodes
        exact .nil
    | case2 address name line rest inductionHypothesis =>
        exact .label (inductionHypothesis decodes)
    | case3 | case4 => contradiction
    | case5 address mnemonic line tokens rest instruction decoded others
        decodedOthers inductionHypothesis =>
        cases decodes
        exact .instruction (decode_eq_ok_iff.mp decoded)
          (inductionHypothesis decodedOthers)
  · intro denoted
    induction denoted with
    | nil => rfl
    | label others inductionHypothesis =>
        rw [ofStatements]
        exact inductionHypothesis
    | instruction denoted others inductionHypothesis =>
        simp only [ofStatements, decode_eq_ok_iff.mpr denoted,
          inductionHypothesis]

theorem AllDenoted.length_eq
    (denoted : AllDenoted labels address statements instructions) :
    instructions.length = Statement.instructionCount statements := by
  induction denoted with
  | nil => rfl
  | label others inductionHypothesis => simp [inductionHypothesis]
  | instruction denoted others inductionHypothesis =>
      simp [inductionHypothesis]

/-- Instructions are denoted part by part, the second part at the addresses
after those of the first. -/
theorem allDenoted_append_iff :
    AllDenoted labels address (earlier ++ later) instructions ↔
      ∃ first second, instructions = first ++ second ∧
        AllDenoted labels address earlier first ∧
        AllDenoted labels (address + Statement.instructionCount earlier) later
          second := by
  constructor
  · intro denoted
    induction earlier generalizing address instructions with
    | nil => exact ⟨[], instructions, rfl, .nil, denoted⟩
    | cons statement earlier inductionHypothesis =>
        cases denoted with
        | label others =>
            obtain ⟨first, second, rfl, denotedFirst, denotedSecond⟩ :=
              inductionHypothesis others
            exact ⟨first, second, rfl, .label denotedFirst, denotedSecond⟩
        | instruction denoted others =>
            obtain ⟨first, second, rfl, denotedFirst, denotedSecond⟩ :=
              inductionHypothesis others
            refine ⟨_ :: first, second, rfl, .instruction denoted denotedFirst,
              ?_⟩
            rw [Statement.instructionCount_instruction, Nat.add_comm _ 1,
              ← Nat.add_assoc]
            exact denotedSecond
  · rintro ⟨first, second, rfl, denotedFirst, denotedSecond⟩
    induction denotedFirst with
    | nil => exact denotedSecond
    | label others inductionHypothesis =>
        exact .label (inductionHypothesis denotedSecond)
    | instruction denoted others inductionHypothesis =>
        refine .instruction denoted (inductionHypothesis ?_)
        rw [Statement.instructionCount_instruction] at denotedSecond
        rw [Nat.add_assoc, Nat.add_comm 1]
        exact denotedSecond

/-- Every instruction is denoted by an instruction statement, at its own
address. -/
theorem AllDenoted.exists_of_getElem?
    (denoted : AllDenoted labels address statements instructions)
    {index : Nat} (found : instructions[index]? = some instruction) :
    ∃ mnemonic line operands,
      .instruction mnemonic line operands ∈ statements ∧
        Denoted labels (address + index) mnemonic line operands
          instruction := by
  induction denoted generalizing index with
  | nil => simp at found
  | label others inductionHypothesis =>
      obtain ⟨mnemonic, line, operands, among, denoted⟩ :=
        inductionHypothesis found
      exact ⟨mnemonic, line, operands, List.mem_cons_of_mem _ among, denoted⟩
  | instruction denoted others inductionHypothesis =>
      cases index with
      | zero =>
          cases found
          exact ⟨_, _, _, List.mem_cons_self, denoted⟩
      | succ index =>
          obtain ⟨mnemonic, line, operands, among, denoted⟩ :=
            inductionHypothesis found
          rw [Nat.add_assoc, Nat.add_comm 1] at denoted
          exact ⟨mnemonic, line, operands, List.mem_cons_of_mem _ among,
            denoted⟩

end Instruction

namespace Program

variable {tokens : List Token} {program : Program} {name : String}
  {index : Nat}

/-- **Programs.**  A token list has a program exactly where its tokens make up
statements, no label is declared twice, and every instruction statement denotes
an instruction.  These instructions and the declarations are the program. -/
theorem ofTokens_eq_ok_iff :
    ofTokens tokens = .ok program ↔
      ∃ statements, Statement.MadeOf tokens statements ∧
        program.labels = ⟨Token.declarations 0 tokens⟩ ∧
        program.labels.Distinct ∧
        Instruction.AllDenoted program.labels 0 statements
          program.instructions.toList := by
  have tables : ∀ {statements labels},
      LabelTable.empty.ofStatements 0 statements = .ok labels ↔
        labels = ⟨Statement.declarations 0 statements⟩ ∧ labels.Distinct :=
    LabelTable.ofStatements_eq_ok_iff LabelTable.distinct_empty
  unfold ofTokens
  constructor
  · intro accepts
    cases grouped : Statement.ofTokens tokens with
    | error parseError => simp [grouped] at accepts
    | ok statements =>
        have made := Statement.ofTokens_eq_ok_iff.mp grouped
        simp only [grouped, ofStatements] at accepts
        cases bound : LabelTable.empty.ofStatements 0 statements with
        | error parseError => simp [bound] at accepts
        | ok labels =>
            simp only [bound] at accepts
            cases decoded : Instruction.ofStatements labels 0 statements with
            | error parseError => simp [decoded] at accepts
            | ok instructions =>
                simp only [decoded] at accepts
                cases accepts
                obtain ⟨table, distinct⟩ := tables.mp bound
                rw [made.declarations_eq] at table
                exact ⟨statements, made, table, distinct,
                  Instruction.ofStatements_eq_ok_iff.mp decoded⟩
  · rintro ⟨statements, made, table, distinct, denoted⟩
    rw [← made.declarations_eq] at table
    simp only [Statement.ofTokens_eq_ok_iff.mpr made, ofStatements,
      tables.mpr ⟨table, distinct⟩,
      Instruction.ofStatements_eq_ok_iff.mpr denoted]

/-- There are as many instructions as mnemonics. -/
theorem size_eq_mnemonicCount (accepts : ofTokens tokens = .ok program) :
    program.size = Token.mnemonicCount tokens := by
  obtain ⟨statements, made, _, _, denoted⟩ := ofTokens_eq_ok_iff.mp accepts
  rw [made.mnemonicCount_eq, ← denoted.length_eq]
  rfl

/-- A label is resolved to the number of mnemonics before its declaration. -/
theorem resolve?_eq_some_iff (accepts : ofTokens tokens = .ok program) :
    program.labels.resolve? name = some index ↔
      ∃ following, Token.Declares tokens name index following := by
  obtain ⟨statements, made, table, distinct, denoted⟩ :=
    ofTokens_eq_ok_iff.mp accepts
  rw [LabelTable.resolve?_eq_some_iff distinct, table]
  constructor
  · rintro ⟨entry, member, rfl, rfl⟩
    obtain ⟨before, token, after, whole, declares, _, count⟩ :=
      Token.mem_declarations_iff.mp member
    rw [Nat.zero_add] at count
    exact ⟨_, before, token, after, whole, declares, count, rfl⟩
  · rintro ⟨following, before, token, after, whole, declares, count, _⟩
    refine ⟨⟨name, index, token.line⟩, ?_, rfl, rfl⟩
    exact Token.mem_declarations_iff.mpr ⟨before, token, after, whole,
      declares, rfl, by rw [Nat.zero_add, count]⟩

/-- A label is declared at one place at most, and this is where it is
resolved to. -/
theorem declares_iff (accepts : ofTokens tokens = .ok program)
    {preceding following : Nat} :
    Token.Declares tokens name preceding following ↔
      program.labels.resolve? name = some preceding ∧
        preceding + following = program.size := by
  rw [resolve?_eq_some_iff accepts, size_eq_mnemonicCount accepts]
  constructor
  · intro declares
    exact ⟨⟨following, declares⟩, declares.count_eq⟩
  · rintro ⟨⟨other, declares⟩, count⟩
    have same : following = other :=
      Nat.add_left_cancel (count.trans declares.count_eq.symm)
    rw [same]
    exact declares

/-- No label is resolved to more than the number of instructions. -/
theorem le_size_of_resolve? (accepts : ofTokens tokens = .ok program)
    (resolved : program.labels.resolve? name = some index) :
    index ≤ program.size := by
  obtain ⟨following, declares⟩ := (resolve?_eq_some_iff accepts).mp resolved
  rw [size_eq_mnemonicCount accepts, ← declares.count_eq]
  exact Nat.le_add_right _ _

/-- Every register field that an instruction of the program uses was read from
a register token. -/
theorem exists_registerToken (accepts : ofTokens tokens = .ok program)
    {instruction : Instruction} (member : instruction ∈ program.instructions)
    {field : Int8} (used : field ∈ instruction.usedFields) :
    ∃ token ∈ tokens, ∃ index, token.kind = .register index ∧
      field = index.toInt8 := by
  obtain ⟨statements, made, _, _, denoted⟩ := ofTokens_eq_ok_iff.mp accepts
  obtain ⟨place, found⟩ :=
    List.mem_iff_getElem?.mp (Array.mem_toList_iff.mpr member)
  obtain ⟨mnemonic, line, operands, among, denoted⟩ :=
    denoted.exists_of_getElem? found
  obtain ⟨index, named, rfl⟩ := denoted.exists_register used
  obtain ⟨token, belongs, kind⟩ := List.mem_map.mp named
  exact ⟨token, made.operand_mem among belongs, index, kind, rfl⟩

/-- When all register tokens name registers, so do all register fields that
the instructions of the program use. -/
theorem namesRegisters (accepts : ofTokens tokens = .ok program)
    (registers : ∀ token ∈ tokens, ∀ index, token.kind = .register index →
      index < 32)
    {instruction : Instruction}
    (member : instruction ∈ program.instructions) :
    instruction.NamesRegisters := by
  intro field used
  obtain ⟨token, among, index, kind, rfl⟩ :=
    exists_registerToken accepts member used
  exact isRegisterIndex_toInt8 (registers token among index kind)

end Program

theorem assemble_eq_ok_iff {source : String} {assembled : Assembled} :
    assemble source = .ok assembled ↔
      lex source = .ok assembled.tokens ∧
        Program.ofTokens assembled.tokens = .ok assembled.program := by
  unfold assemble
  constructor
  · intro assembles
    cases reads : lex source with
    | error lexError => simp [reads] at assembles
    | ok tokens =>
        simp only [reads] at assembles
        cases accepts : Program.ofTokens tokens with
        | error parseError => simp [accepts] at assembles
        | ok program =>
            simp only [accepts] at assembles
            cases assembles
            exact ⟨rfl, accepts⟩
  · rintro ⟨reads, accepts⟩
    simp only [reads, accepts]

/-- The register fields that assembled instructions use name registers. -/
theorem namesRegisters_of_assemble {source : String} {assembled : Assembled}
    (assembles : assemble source = .ok assembled) {instruction : Instruction}
    (member : instruction ∈ assembled.program.instructions) :
    instruction.NamesRegisters := by
  obtain ⟨reads, accepts⟩ := assemble_eq_ok_iff.mp assembles
  exact Program.namesRegisters accepts
    (fun token among index kind => register_lt_of_lex reads among kind) member

end MiniMips
