import MiniMips.Assembly.Program
import MiniMips.Proofs.Assembly.BreakpointText
import MiniMips.Proofs.Assembly.Statements

/-!
Contract: programs with every breakpoint made idle.

Owns:
- replacing the mnemonic of a breakpoint in statements, and making breakpoints
  idle in a program;
- the faults that name the operation they are about;
- that what a source is assembled to, or refused for, follows the replacement.
-/

namespace MiniMips

def Statement.withoutBreakpoint : Statement → Statement
  | .label name line => .label name line
  | .instruction mnemonic line operands =>
      .instruction (mnemonicWithoutBreakpoint mnemonic) line operands

def Program.withoutBreakpoints (program : Program) : Program :=
  { program with
    instructions := program.instructions.map Instruction.withoutBreakpoint }

def Assembled.withoutBreakpoints (assembled : Assembled) : Assembled where
  tokens := assembled.tokens.map Token.withoutBreakpoint
  program := assembled.program.withoutBreakpoints

/-- A fault that names the operation that it is about names the idle one in
place of a breakpoint. -/
def ParseFault.withoutBreakpoint : ParseFault → ParseFault
  | .operandMismatch mnemonic expected found =>
      .operandMismatch (mnemonicWithoutBreakpoint mnemonic) expected found
  | fault => fault

def ParseError.withoutBreakpoint (parseError : ParseError) : ParseError :=
  { parseError with fault := parseError.fault.withoutBreakpoint }

def AssemblyError.withoutBreakpoint : AssemblyError → AssemblyError
  | .lex lexError => .lex lexError
  | .parse parseError => .parse parseError.withoutBreakpoint

/-! ## Statements -/

theorem Token.startsStatement_withoutBreakpoint (token : Token) :
    token.withoutBreakpoint.startsStatement = token.startsStatement := by
  rcases token with ⟨kind, text, line⟩
  cases kind <;> rfl

theorem Token.line_withoutBreakpoint (token : Token) :
    token.withoutBreakpoint.line = token.line := by
  rcases token with ⟨kind, text, line⟩
  cases kind <;> rfl

namespace Statement

theorem isOperandOn_withoutBreakpoint (line : Nat) :
    isOperandOn line ∘ Token.withoutBreakpoint = isOperandOn line := by
  funext token
  simp only [isOperandOn, Function.comp, Token.line_withoutBreakpoint,
    Token.startsStatement_withoutBreakpoint]

/-- The operands of a mnemonic stay where they are and what they are. -/
theorem takeWhile_withoutBreakpoint (line : Nat) (tokens : List Token) :
    (tokens.map Token.withoutBreakpoint).takeWhile (isOperandOn line) =
      tokens.takeWhile (isOperandOn line) := by
  have same : ∀ token ∈ tokens.takeWhile (isOperandOn line),
      token.withoutBreakpoint = token := by
    intro token member
    have belongs := List.all_eq_true.mp List.all_takeWhile token member
    obtain ⟨_, operand⟩ := isOperandOn_iff.mp belongs
    apply Token.withoutBreakpoint_of_ne_mnemonic
    intro name names
    simp [Token.startsStatement, names] at operand
  rw [List.takeWhile_map, isOperandOn_withoutBreakpoint]
  exact (List.map_congr_left same).trans (List.map_id _)

theorem dropWhile_withoutBreakpoint (line : Nat) (tokens : List Token) :
    (tokens.map Token.withoutBreakpoint).dropWhile (isOperandOn line) =
      (tokens.dropWhile (isOperandOn line)).map Token.withoutBreakpoint := by
  rw [List.dropWhile_map, isOperandOn_withoutBreakpoint]

theorem ofTokens_withoutBreakpoint (tokens : List Token) :
    ofTokens (tokens.map Token.withoutBreakpoint) =
      ((ofTokens tokens).map (List.map withoutBreakpoint)).mapError
        ParseError.withoutBreakpoint := by
  fun_induction ofTokens tokens with
  | case1 =>
      rw [List.map_nil, ofTokens]
      rfl
  | case2 token rest name declares answer grouping inductionHypothesis
  | case3 token rest name declares answer grouping inductionHypothesis =>
      have same : token.withoutBreakpoint = token := by
        apply Token.withoutBreakpoint_of_ne_mnemonic
        simp [declares]
      rw [grouping] at inductionHypothesis
      rw [List.map_cons, same, ofTokens]
      simp only [declares, inductionHypothesis]
      rfl
  | case4 token rest name names answer grouping inductionHypothesis
  | case5 token rest name names answer grouping inductionHypothesis =>
      have renamed : token.withoutBreakpoint.kind =
          .mnemonic (mnemonicWithoutBreakpoint name) := by
        simp only [Token.withoutBreakpoint, names]
      rw [grouping] at inductionHypothesis
      rw [List.map_cons, ofTokens]
      simp only [renamed, Token.line_withoutBreakpoint,
        takeWhile_withoutBreakpoint, dropWhile_withoutBreakpoint,
        inductionHypothesis]
      rfl
  | case6 token rest unlabelled unnamed =>
      have same : token.withoutBreakpoint = token :=
        Token.withoutBreakpoint_of_ne_mnemonic unnamed
      rw [List.map_cons, same, ofTokens]
      split
      next name declares => exact absurd declares (unlabelled name)
      next name names => exact absurd names (unnamed name)
      next => rfl

end Statement

/-! ## Programs -/

theorem Opcode.shape_withoutBreakpoint (opcode : Opcode) :
    opcode.withoutBreakpoint.shape = opcode.shape := by
  cases opcode <;> rfl

theorem LabelTable.ofStatements_withoutBreakpoint (table : LabelTable)
    (address : Nat) (statements : List Statement) :
    table.ofStatements address (statements.map Statement.withoutBreakpoint) =
      (table.ofStatements address statements).mapError
        ParseError.withoutBreakpoint := by
  induction statements generalizing table address with
  | nil => rfl
  | cons statement statements inductionHypothesis =>
      cases statement with
      | instruction mnemonic line operands =>
          exact inductionHypothesis table (address + 1)
      | label name line =>
          rw [List.map_cons, Statement.withoutBreakpoint, ofStatements,
            ofStatements]
          cases declared : table.declare name address line with
          | ok extended => exact inductionHypothesis extended address
          | error parseError =>
              unfold declare at declared
              split at declared
              · cases declared
                rfl
              · contradiction

namespace Instruction

variable (labels : LabelTable) (address : Nat)

theorem mismatch_withoutBreakpoint (opcode : Opcode) (found : String) :
    mismatch opcode.withoutBreakpoint found =
      (mismatch opcode found).withoutBreakpoint := by
  have template : opcode.withoutBreakpoint.shape.template =
      opcode.shape.template := by
    rw [Opcode.shape_withoutBreakpoint]
  show ParseFault.operandMismatch _ _ _ = ParseFault.operandMismatch _ _ _
  rw [mnemonicWithoutBreakpoint_mnemonic, template]

theorem fill_withoutBreakpoint (instruction : Instruction)
    (slot : OperandSlot) (operand : Operand) :
    instruction.withoutBreakpoint.fill labels address slot operand =
      ((instruction.fill labels address slot operand).map
        withoutBreakpoint).mapError ParseFault.withoutBreakpoint := by
  have mismatches := fun found =>
    congrArg (Except.error (α := Instruction))
      (mismatch_withoutBreakpoint instruction.opcode found)
  cases slot with
  | rd | rs | rt =>
      cases operand with
      | register index => rfl
      | _ => exact mismatches _
  | immediate =>
      cases operand with
      | immediate value => rfl
      | _ => exact mismatches _
  | memory =>
      cases operand with
      | memory offset base => rfl
      | _ => exact mismatches _
  | shiftAmount =>
      cases operand with
      | immediate value =>
          by_cases inRange : 0 ≤ value ∧ value ≤ largestShift
          · rw [fill, fill, if_pos inRange, if_pos inRange]
            rfl
          · rw [fill, fill, if_neg inRange, if_neg inRange]
            rfl
      | _ => exact mismatches _
  | branchTarget | jumpTarget =>
      cases operand with
      | immediate value => rfl
      | symbol name =>
          cases resolved : labels.resolve? name with
          | none =>
              simp only [fill, resolved]
              rfl
          | some destination =>
              simp only [fill, resolved]
              rfl
      | _ => exact mismatches _

theorem fillAll_withoutBreakpoint (instruction : Instruction)
    (slots : List OperandSlot) (operands : List Operand) :
    fillAll labels address instruction.withoutBreakpoint slots operands =
      ((fillAll labels address instruction slots operands).map
        withoutBreakpoint).mapError ParseFault.withoutBreakpoint := by
  induction slots generalizing instruction operands with
  | nil => rfl
  | cons slot slots inductionHypothesis =>
      cases operands with
      | nil => rfl
      | cons operand operands =>
          rw [fillAll, fillAll, fill_withoutBreakpoint]
          cases instruction.fill labels address slot operand with
          | error fault => rfl
          | ok filled => exact inductionHypothesis filled operands

theorem ofOperands_withoutBreakpoint (opcode : Opcode) (line : Nat)
    (tokens : List Token) :
    ofOperands labels address opcode.withoutBreakpoint line tokens =
      ((ofOperands labels address opcode line tokens).map
        withoutBreakpoint).mapError ParseFault.withoutBreakpoint := by
  unfold ofOperands
  rw [Opcode.shape_withoutBreakpoint]
  cases Operand.ofTokens? tokens with
  | none =>
      exact congrArg Except.error (mismatch_withoutBreakpoint opcode _)
  | some operands =>
      by_cases accepted : OperandSlot.acceptAll opcode.shape.slots operands
      · simp only [accepted, if_true]
        exact fillAll_withoutBreakpoint labels address
          { bare opcode line with label? := labels.nameAt? address }
          opcode.shape.slots operands
      · simp only [accepted]
        exact congrArg Except.error (mismatch_withoutBreakpoint opcode _)

theorem decode_withoutBreakpoint (mnemonic : String) (line : Nat)
    (tokens : List Token) :
    decode labels address (mnemonicWithoutBreakpoint mnemonic) line tokens =
      ((decode labels address mnemonic line tokens).map
        withoutBreakpoint).mapError ParseError.withoutBreakpoint := by
  unfold decode
  rw [ofMnemonic?_mnemonicWithoutBreakpoint]
  cases known : Opcode.ofMnemonic? mnemonic.toList with
  | none =>
      have same : mnemonicWithoutBreakpoint mnemonic = mnemonic := by
        rw [mnemonicWithoutBreakpoint, known]
        rfl
      rw [same]
      rfl
  | some opcode =>
      simp only [Option.map_some, ofOperands_withoutBreakpoint]
      cases ofOperands labels address opcode line tokens <;> rfl

theorem ofStatements_withoutBreakpoint (statements : List Statement) :
    Instruction.ofStatements labels address
        (statements.map Statement.withoutBreakpoint) =
      ((Instruction.ofStatements labels address statements).map
        (List.map withoutBreakpoint)).mapError
          ParseError.withoutBreakpoint := by
  induction statements generalizing address with
  | nil => rfl
  | cons statement statements inductionHypothesis =>
      cases statement with
      | label name line => exact inductionHypothesis address
      | instruction mnemonic line operands =>
          rw [List.map_cons, Statement.withoutBreakpoint, ofStatements,
            ofStatements, decode_withoutBreakpoint,
            inductionHypothesis (address + 1)]
          cases decode labels address mnemonic line operands with
          | error parseError => rfl
          | ok instruction =>
              cases Instruction.ofStatements labels (address + 1)
                statements <;> rfl

end Instruction

namespace Program

theorem ofStatements_withoutBreakpoint (statements : List Statement) :
    ofStatements (statements.map Statement.withoutBreakpoint) =
      ((ofStatements statements).map withoutBreakpoints).mapError
        ParseError.withoutBreakpoint := by
  unfold ofStatements
  rw [LabelTable.ofStatements_withoutBreakpoint]
  cases LabelTable.empty.ofStatements 0 statements with
  | error parseError => rfl
  | ok labels =>
      simp only [Except.mapError, Instruction.ofStatements_withoutBreakpoint]
      cases Instruction.ofStatements labels 0 statements with
      | error parseError => rfl
      | ok instructions =>
          simp only [Except.map, withoutBreakpoints, List.map_toArray]

theorem ofTokens_withoutBreakpoint (tokens : List Token) :
    ofTokens (tokens.map Token.withoutBreakpoint) =
      ((ofTokens tokens).map withoutBreakpoints).mapError
        ParseError.withoutBreakpoint := by
  unfold ofTokens
  rw [Statement.ofTokens_withoutBreakpoint]
  cases Statement.ofTokens tokens with
  | error parseError => rfl
  | ok statements => exact ofStatements_withoutBreakpoint statements

end Program

/-- **Assembly.**  A source with every breakpoint made idle is assembled to what
the source is assembled to with every breakpoint made idle.  Where one is
refused the other is, for the same fault. -/
theorem assemble_sourceWithoutBreakpoints (source : String) :
    assemble (sourceWithoutBreakpoints source) =
      ((assemble source).map Assembled.withoutBreakpoints).mapError
        AssemblyError.withoutBreakpoint := by
  unfold assemble
  rw [lex_sourceWithoutBreakpoints]
  cases lex source with
  | error lexError => rfl
  | ok tokens =>
      simp only [Except.map, Program.ofTokens_withoutBreakpoint]
      cases Program.ofTokens tokens <;> rfl

end MiniMips
