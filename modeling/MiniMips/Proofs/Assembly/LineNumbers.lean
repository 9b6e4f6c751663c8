import MiniMips.Proofs.Assembly.Variation

/-!
Contract: programs without the numbers of lines.

Owns:
- leaving out the lines that tokens, programs and faults name;
- token lists in which the same operand tokens stand on the line of the
  mnemonic before them, and how such lists are put together line by line;
- that these are assembled to programs, or refused for faults, that are the
  same but for their lines;
- the lines of an accepted program, which are those of its tokens.
-/

namespace MiniMips

def Token.withoutLine (token : Token) : Token :=
  { token with line := 0 }

def LabelEntry.withoutLine (entry : LabelEntry) : LabelEntry :=
  { entry with line := 0 }

def Instruction.withoutLine (instruction : Instruction) : Instruction :=
  { instruction with line := 0 }

def Program.withoutLines (program : Program) : Program where
  instructions := program.instructions.map Instruction.withoutLine
  labels := ⟨program.labels.entries.map LabelEntry.withoutLine⟩

def ParseFault.withoutLine : ParseFault → ParseFault
  | .duplicateLabel label _ => .duplicateLabel label 0
  | fault => fault

def ParseError.withoutLine (parseError : ParseError) : ParseError where
  line := 0
  fault := parseError.fault.withoutLine

/-- What becomes of a token list, but for the numbers of lines. -/
def Program.outcomeWithoutLines (tokens : List Token) :
    Except ParseError Program :=
  ((ofTokens tokens).map withoutLines).mapError ParseError.withoutLine

def Token.isLabel (token : Token) : Bool :=
  match token.kind with
  | .label _ => true
  | _ => false

/-- At places of the same number, an operand token stands on the line of the
mnemonic before it in both token lists or in neither.  Where a label is the last
to begin a statement before it, its line does not matter. -/
def Token.SameGrouping (tokens others : List Token) : Prop :=
  ∀ before token after otherBefore other otherAfter,
    tokens = before ++ token :: after →
    others = otherBefore ++ other :: otherAfter →
    before.length = otherBefore.length →
    token.startsStatement = false →
    ∀ start ∈ lastStart? before, ∀ otherStart ∈ lastStart? otherBefore,
      start.isMnemonic = true →
      (start.line = token.line ↔ otherStart.line = other.line)

variable {tokens others seen otherSeen block otherBlock : List Token}
  {line otherLine : Nat}

/-! ## Outcomes -/

/-- Any other lines, and the same names and texts. -/
def Variation.relining : Variation where
  rename := id
  line := fun _ _ => True
  quote := Eq
  injective := Function.injective_id
  quote_intercalate := by
    intro separator texts others same
    rw [List.forall₂_eq_eq_eq] at same
    rw [same]
  quote_operand := by
    intro operand
    cases operand <;> rfl

theorem Token.forall₂_relining
    (same : tokens.map withoutLine = others.map withoutLine) :
    List.Forall₂ (Corresponds .relining) tokens others := by
  rw [← List.forall₂_eq_eq_eq, List.forall₂_map_left_iff,
    List.forall₂_map_right_iff] at same
  refine same.imp fun token other sameWord => ?_
  obtain ⟨sameKind, sameText, _⟩ := Token.mk.inj sameWord
  refine ⟨?_, trivial, sameText⟩
  rw [← sameKind]
  cases token.kind <;> rfl

theorem Instruction.Corresponds.withoutLine_eq
    {instruction other : Instruction}
    (corresponds : instruction.Corresponds .relining other) :
    instruction.withoutLine = other.withoutLine := by
  have sameOther := congrArg withoutLine corresponds.same
  rw [sameOther]
  simp [withoutLine, recast, Variation.relining]

theorem LabelEntry.Corresponds.withoutLine_eq {entry other : LabelEntry}
    (corresponds : entry.Corresponds .relining other) :
    entry.withoutLine = other.withoutLine := by
  cases other
  cases corresponds.name
  cases corresponds.index
  rfl

theorem Program.Corresponds.withoutLines_eq {program other : Program}
    (corresponds : program.Corresponds .relining other) :
    program.withoutLines = other.withoutLines := by
  rcases program with ⟨⟨instructions⟩, ⟨entries⟩⟩
  rcases other with ⟨⟨otherInstructions⟩, ⟨otherEntries⟩⟩
  have sameInstructions : instructions.map Instruction.withoutLine =
      otherInstructions.map Instruction.withoutLine :=
    map_eq_map_of_forall₂ (corresponds.instructions.imp
      fun _ _ each => each.withoutLine_eq)
  have sameEntries : entries.map LabelEntry.withoutLine =
      otherEntries.map LabelEntry.withoutLine :=
    map_eq_map_of_forall₂ (List.Forall₂.imp
      (fun _ _ each => each.withoutLine_eq) corresponds.labels)
  simp only [withoutLines, List.map_toArray, sameInstructions, sameEntries]

theorem ParseError.Corresponds.withoutLine_eq {parseError other : ParseError}
    (corresponds : parseError.Corresponds .relining other) :
    parseError.withoutLine = other.withoutLine := by
  have faults := corresponds.fault
  unfold withoutLine
  generalize parseError.fault = fault at faults ⊢
  generalize other.fault = otherFault at faults ⊢
  cases faults with
  | operandMismatch mnemonic expected quoted =>
      cases quoted
      rfl
  | expectedMnemonic quoted =>
      cases quoted
      rfl
  | _ => rfl

/-- The lines of tokens matter only where they tell the operand tokens of a
mnemonic from others. -/
theorem Program.outcomeWithoutLines_eq
    (same : tokens.map Token.withoutLine = others.map Token.withoutLine)
    (grouping : Token.SameGrouping tokens others) :
    outcomeWithoutLines tokens = outcomeWithoutLines others := by
  have related := Token.forall₂_relining same
  have strays : SamePlaces (Token.Corresponds .relining) Token.IsStray
      Token.IsStray tokens others := by
    intro before token otherBefore other cut otherCut relatedBefore corresponds
    obtain ⟨after, rfl⟩ := cut
    obtain ⟨otherAfter, rfl⟩ := otherCut
    exact Token.isStray_iff relatedBefore corresponds
      (grouping before token after otherBefore other otherAfter (by simp)
        (by simp) relatedBefore.length_eq)
  unfold outcomeWithoutLines
  rcases (ofTokens_alike related strays).error_or_ok with
    ⟨parseError, other, fails, failsToo, alike⟩ |
    ⟨program, other, accepts, acceptsToo, alike⟩
  · rw [fails, failsToo]
    exact congrArg Except.error alike.withoutLine_eq
  · rw [accepts, acceptsToo]
    exact congrArg Except.ok alike.withoutLines_eq

/-! ## Lines of a program -/

theorem Statement.MadeOf.filter_isMnemonic_operands {operands : List Token}
    (belong : ∀ operand ∈ operands, Statement.isOperandOn line operand = true) :
    operands.filter Token.isMnemonic = [] := by
  refine List.filter_eq_nil_iff.mpr fun operand member => ?_
  obtain ⟨_, noStart⟩ := Statement.isOperandOn_iff.mp (belong operand member)
  simp [Token.isMnemonic_of_operand noStart]

theorem Instruction.AllDenoted.lines_eq {labels : LabelTable} {address : Nat}
    {statements : List Statement} {instructions : List Instruction}
    (denoted : AllDenoted labels address statements instructions)
    (made : Statement.MadeOf tokens statements) :
    instructions.map Instruction.line =
      (tokens.filter Token.isMnemonic).map Token.line := by
  induction made generalizing address instructions with
  | nil =>
      cases denoted
      rfl
  | label declares others inductionHypothesis =>
      cases denoted with
      | label denoted =>
          rw [List.filter_cons_of_neg
            (by simp [Token.isMnemonic_of_label declares])]
          exact inductionHypothesis denoted
  | instruction names belong others inductionHypothesis =>
      cases denoted with
      | instruction first denoted =>
          rw [List.filter_cons_of_pos (Token.isMnemonic_of_kind names),
            List.filter_append,
            Statement.MadeOf.filter_isMnemonic_operands belong,
            List.nil_append, List.map_cons, List.map_cons, first.line,
            inductionHypothesis denoted]

theorem Token.lines_declarations (address : Nat) (tokens : List Token) :
    (declarations address tokens).map LabelEntry.line =
      (tokens.filter isLabel).map Token.line := by
  induction tokens generalizing address with
  | nil => rfl
  | cons token tokens inductionHypothesis =>
      rw [declarations, List.filter_cons, isLabel]
      cases token.kind <;> simp [inductionHypothesis]

/-- The instructions of a program are on the lines of its mnemonics, and its
labels are on the lines of its label tokens. -/
theorem Program.lines_of_ofTokens {program : Program}
    (accepts : ofTokens tokens = .ok program) :
    program.instructions.toList.map Instruction.line =
        (tokens.filter Token.isMnemonic).map Token.line ∧
      program.labels.entries.map LabelEntry.line =
        (tokens.filter Token.isLabel).map Token.line := by
  obtain ⟨statements, made, labels, _, denoted⟩ :=
    ofTokens_eq_ok_iff.mp accepts
  refine ⟨denoted.lines_eq made, ?_⟩
  rw [labels]
  exact Token.lines_declarations 0 tokens

/-! ## Line by line -/

theorem Token.lastStart?_append (before after : List Token) :
    lastStart? (before ++ after) =
      (lastStart? after).or (lastStart? before) := by
  rw [lastStart?, List.reverse_append, List.find?_append]
  rfl

theorem Token.mem_of_lastStart? {start : Token}
    (last : start ∈ lastStart? tokens) : start ∈ tokens :=
  List.mem_reverse.mp (List.mem_of_find?_eq_some last)

theorem Token.sameGrouping_nil : SameGrouping [] [] := by
  intro before token after _ _ _ whole
  simp at whole

/-- Tokens on a line of their own do not belong to mnemonics before them,
however this line is numbered. -/
theorem Token.SameGrouping.append_line
    (grouping : SameGrouping seen otherSeen)
    (sameSeen : seen.map withoutLine = otherSeen.map withoutLine)
    (same : block.map withoutLine = otherBlock.map withoutLine)
    (onLine : ∀ token ∈ block, token.line = line)
    (otherOnLine : ∀ token ∈ otherBlock, token.line = otherLine)
    (apart : ∀ token ∈ seen, token.isMnemonic = true → token.line ≠ line)
    (otherApart : ∀ token ∈ otherSeen, token.isMnemonic = true →
      token.line ≠ otherLine) :
    SameGrouping (seen ++ block) (otherSeen ++ otherBlock) := by
  intro before token after otherBefore other otherAfter whole otherWhole
    sameLength operand start last otherStart otherLast isMnemonic
  have sameLeft : seen.length = otherSeen.length := by
    simpa using congrArg List.length sameSeen
  rcases cut_append_both whole.symm otherWhole.symm sameLeft sameLength with
    ⟨rest, otherRest, inSeen, otherInSeen⟩ |
    ⟨rest, otherRest, rfl, rfl, rfl, rfl⟩
  · exact grouping before token rest otherBefore other otherRest inSeen
      otherInSeen sameLength operand start last otherStart otherLast isMnemonic
  have tokenLine : token.line = line := onLine token (by simp)
  have otherTokenLine : other.line = otherLine := otherOnLine other (by simp)
  have sameRest : rest.map withoutLine = otherRest.map withoutLine := by
    rw [List.map_append, List.map_append] at same
    simp only [List.length_append] at sameLength
    exact (List.append_inj same (by simp only [List.length_map]; omega)).1
  rw [tokenLine, otherTokenLine]
  rw [lastStart?_append] at last otherLast
  -- The statement around the token begins on this line, or else before it.
  have inRest := rel_lastStart? (forall₂_relining sameRest)
  generalize found : lastStart? rest = first at inRest last
  generalize otherFound : lastStart? otherRest = otherFirst at inRest otherLast
  cases inRest with
  | some corresponds =>
      cases last
      cases otherLast
      exact iff_of_true
        (onLine start (List.mem_append_left _ (mem_of_lastStart? found)))
        (otherOnLine otherStart
          (List.mem_append_left _ (mem_of_lastStart? otherFound)))
  | none =>
      rw [Option.none_or] at last otherLast
      have inSeen := rel_lastStart? (forall₂_relining sameSeen)
      rw [Option.mem_def.mp last, Option.mem_def.mp otherLast] at inSeen
      cases inSeen with
      | some corresponds =>
          have otherMnemonic := isMnemonic
          rw [corresponds.isMnemonic_eq] at otherMnemonic
          exact iff_of_false
            (apart start (mem_of_lastStart? last) isMnemonic)
            (otherApart otherStart (mem_of_lastStart? otherLast)
              otherMnemonic)

end MiniMips
