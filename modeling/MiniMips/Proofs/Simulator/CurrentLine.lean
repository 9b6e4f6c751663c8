import MiniMips.Proofs.Assembly.LineOrder
import MiniMips.Proofs.Simulator.Faults

/-!
Contract: the current line of a simulator.

Owns:
- that the current line tells the instruction at the program counter from all
  others of the installed program.
-/

namespace MiniMips.Simulator

variable {simulator other : Simulator}

/-- There is no current line behind the last instruction. -/
theorem currentLine_of_past
    (past : simulator.program.size ≤ simulator.machine.pc) :
    simulator.currentLine = 1 := by
  have absent : simulator.program.instructions[simulator.machine.pc]? = none :=
    Array.getElem?_eq_none past
  simp only [currentLine, absent]

theorem exists_instruction_of_inside
    (inside : simulator.machine.pc < simulator.program.size) :
    ∃ instruction,
      simulator.program.instructions[simulator.machine.pc]? =
          some instruction ∧
        instruction.line = simulator.currentLine := by
  have present := Array.getElem?_eq_getElem inside
  exact ⟨_, present, (currentLine_of_present present).symm⟩

/-- The current line tells the program counter, wherever there is an
instruction. -/
theorem Coherent.pc_eq_of_currentLine_eq (coherent : Coherent simulator)
    (sameProgram : other.program = simulator.program)
    (inside : simulator.machine.pc < simulator.program.size)
    (otherInside : other.machine.pc < other.program.size)
    (sameLine : other.currentLine = simulator.currentLine) :
    other.machine.pc = simulator.machine.pc := by
  obtain ⟨instruction, present, line⟩ := exists_instruction_of_inside inside
  obtain ⟨otherInstruction, presentOther, otherLine⟩ :=
    exists_instruction_of_inside otherInside
  rw [sameProgram] at presentOther
  rcases coherent.installed with ⟨_, empty⟩ | upToDate
  · rw [empty] at inside
    exact absurd inside (Nat.not_lt_zero _)
  · refine index_eq_of_line_eq upToDate present presentOther ?_
    rw [line, otherLine, sameLine]

/-- **Lines.**  The lines of the instructions of a source increase, so that no
line has two of them.  They are lines of the source, and on its own line every
instruction has its mnemonic.  Hence the current line of a simulator tells
which instruction is next, wherever there is one.  It is the first line where
there is none. -/
theorem lines_tell_instructions :
    (∀ (source : String) (assembled : Assembled),
      assemble source = .ok assembled →
      assembled.program.instructions.toList.Pairwise
        (fun instruction next => instruction.line < next.line) ∧
      (∀ index instruction,
        assembled.program.instructions[index]? = some instruction →
        1 ≤ instruction.line ∧
        instruction.line ≤ (endedLines (linesOfText source.toList)).length ∧
        ∃ before token after text front back,
          assembled.tokens = before ++ token :: after ∧
          token.isMnemonic = true ∧ Token.mnemonicCount before = index ∧
          token.line = instruction.line ∧
          (endedLines (linesOfText source.toList))[instruction.line - 1]? =
            some text ∧
          codeOfLine text = front ++ (token.text.toList ++ back) ∧
          Opcode.ofMnemonic? token.text.toList = some instruction.opcode) ∧
      ∀ (index other : Nat) (instruction otherInstruction : Instruction),
        assembled.program.instructions[index]? = some instruction →
        assembled.program.instructions[other]? = some otherInstruction →
        otherInstruction.line = instruction.line → other = index) ∧
    (∀ (configuration : Configuration) (simulator other : Simulator),
      Reachable configuration simulator →
      other.program = simulator.program →
      simulator.machine.pc < simulator.program.size →
      other.machine.pc < other.program.size →
      other.currentLine = simulator.currentLine →
      other.machine.pc = simulator.machine.pc) ∧
    ∀ simulator : Simulator,
      simulator.program.size ≤ simulator.machine.pc →
      simulator.currentLine = 1 := by
  refine ⟨?_, ?_, fun _ past => currentLine_of_past past⟩
  · intro source assembled assembles
    refine ⟨pairwise_lines_of_assemble assembles, ?_, ?_⟩
    · intro index instruction present
      obtain ⟨least, before, token, after, text, front, back, whole, names,
        counted, sameLine, line, spelled, opcode⟩ :=
        exists_line_of_instruction assembles present
      have inside := (List.getElem?_eq_some_iff.mp line).1
      exact ⟨least, by omega, before, token, after, text, front, back, whole,
        names, counted, sameLine, line, spelled, opcode⟩
    · intro index other instruction otherInstruction present presentOther
        sameLine
      exact index_eq_of_line_eq assembles present presentOther sameLine
  · intro configuration simulator other reachable sameProgram inside
      otherInside sameLine
    exact reachable.coherent.pc_eq_of_currentLine_eq sameProgram inside
      otherInside sameLine

/-- Behind the first of two instructions, the last of which stands on the third
line. -/
theorem lines_tell_instructions_third :
    ∃ simulator,
      Reachable { Configuration.standard with memory := ⟨8, none⟩ } simulator ∧
      simulator.currentLine = 3 ∧
      ∀ other : Simulator, other.program = simulator.program →
        other.machine.pc < 2 → other.currentLine = 3 →
        other.machine.pc = 1 := by
  have results : ((new "a: nop b:\r\n# nop\nc: nop # nop\n"
      { Configuration.standard with memory := ⟨8, none⟩ }).answer? .step).map
        (fun response => (response.simulator.currentLine,
          response.simulator.machine.pc, response.simulator.program.size)) =
      some (3, 1, 2) := by
    decide +kernel
  obtain ⟨response, answers, values⟩ := Option.map_eq_some_iff.mp results
  obtain ⟨line, pc, size⟩ :
      response.simulator.currentLine = 3 ∧
        response.simulator.machine.pc = 1 ∧
        response.simulator.program.size = 2 := by
    simpa using values
  have reachable := (Reachable.new _).answered answers
  obtain ⟨_, unique, _⟩ := lines_tell_instructions
  refine ⟨response.simulator, reachable, line, ?_⟩
  intro other sameProgram otherInside otherLine
  rw [← pc]
  refine unique _ _ other reachable sameProgram ?_ ?_ ?_
  · rw [pc, size]
    decide
  · rw [sameProgram, size]
    exact otherInside
  · rw [otherLine, line]

end MiniMips.Simulator
