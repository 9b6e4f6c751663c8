import MiniMips.Proofs.Assembly.Programs

/-!
Contract: what a token list is accepted or refused for.

Owns:
- operand tokens that belong to no mnemonic, label tokens that repeat a name,
  and mnemonics whose statement denotes no instruction, each a matter of a
  token and the tokens around it;
- the verdict on a token list: the first token of the first of these three
  kinds that there is, or else the program;
- that every token list has exactly one verdict, and that this is its outcome.
-/

namespace MiniMips

variable {tokens seen rest operands before : List Token} {token : Token}
  {statements : List Statement} {name : String}

/-! ## Tokens at fault -/

/-- The last label or mnemonic among tokens. -/
def Token.lastStart? (tokens : List Token) : Option Token :=
  tokens.reverse.find? Token.startsStatement

/-- An operand token is stray unless the last label or mnemonic before it is a
mnemonic on its own line. -/
def Token.IsStray (before : List Token) (token : Token) : Prop :=
  token.startsStatement = false ∧
    ∀ start ∈ lastStart? before,
      start.isMnemonic = false ∨ start.line ≠ token.line

/-- Both tokens declare a label of the same name. -/
def Token.SameLabel (token other : Token) : Prop :=
  ∃ name, token.kind = .label name ∧ other.kind = .label name

/-- A label token whose name is declared before it. -/
def Token.Redeclares (before : List Token) (token : Token) : Prop :=
  ∃ earlier ∈ before, token.SameLabel earlier

/-- What the mnemonic after the tokens `before` denotes: it is decoded with the
operand tokens up to the next label or mnemonic, at the address that the
mnemonics before it make up, and with all labels of the token list. -/
def Token.Decodes (tokens before : List Token) (token : Token)
    (outcome : Except ParseError Instruction) : Prop :=
  ∃ name after, token.kind = .mnemonic name ∧
    tokens = before ++ token :: after ∧
    Instruction.decode ⟨declarations 0 tokens⟩ (mnemonicCount before) name
      token.line (after.takeWhile (fun next => !next.startsStatement)) = outcome

/-- A mnemonic whose statement denotes no instruction. -/
def Token.IsRefused (tokens before : List Token) (token : Token) : Prop :=
  ∃ parseError, Decodes tokens before token (.error parseError)

open Token

/-- A program has the labels that are declared among tokens, and at each
address the instruction that the mnemonic of this number denotes. -/
structure Program.IsDenoted (tokens : List Token) (program : Program) :
    Prop where
  labels : program.labels = ⟨declarations 0 tokens⟩
  size : program.size = mnemonicCount tokens
  decodes : ∀ before token after, tokens = before ++ token :: after →
    token.isMnemonic = true →
    ∃ instruction,
      program.instructions[mnemonicCount before]? = some instruction ∧
        Decodes tokens before token (.ok instruction)

/-- The verdict on a token list.  A stray operand token comes before everything
else, and a label that is declared again comes before all that instruction
statements may be refused for. -/
inductive Verdict (tokens : List Token) : Except ParseError Program → Prop where
  | stray {before : List Token} {token : Token}
      (first : FirstPlace IsStray tokens before token) :
      Verdict tokens (.error ⟨token.line, .expectedMnemonic token.text⟩)
  | redeclared {before : List Token} {token earlier : Token} {name : String}
      (grouped : Nowhere IsStray tokens)
      (first : FirstPlace Redeclares tokens before token)
      (declares : token.kind = .label name)
      (among : earlier ∈ before) (declared : earlier.kind = .label name) :
      Verdict tokens (.error ⟨token.line, .duplicateLabel name earlier.line⟩)
  | undecodable {before : List Token} {token : Token}
      {parseError : ParseError}
      (grouped : Nowhere IsStray tokens)
      (distinct : Nowhere Redeclares tokens)
      (first : FirstPlace (IsRefused tokens) tokens before token)
      (refused : Decodes tokens before token (.error parseError)) :
      Verdict tokens (.error parseError)
  | program {program : Program}
      (grouped : Nowhere IsStray tokens)
      (distinct : Nowhere Redeclares tokens)
      (denoted : program.IsDenoted tokens) :
      Verdict tokens (.ok program)

/-! ## Statements -/

theorem Token.lastStart?_append_cons (starts : token.startsStatement = true)
    (silent : ∀ operand ∈ operands, operand.startsStatement = false) :
    lastStart? (seen ++ token :: operands) = some token := by
  have none : operands.reverse.find? startsStatement = none := by
    refine List.find?_eq_none.mpr fun operand member => ?_
    rw [silent operand (List.mem_reverse.mp member)]
    exact Bool.false_ne_true
  rw [lastStart?, List.reverse_append, List.reverse_cons, List.find?_append,
    List.find?_append, none, List.find?_singleton, if_pos starts]
  rfl

theorem Token.not_isStray_of_starts (starts : token.startsStatement = true) :
    ¬ IsStray before token := by
  intro stray
  rw [stray.1] at starts
  contradiction

/-- A mnemonic and its operand tokens are no stray tokens. -/
theorem Token.nowhere_isStray_instruction (nowhere : Nowhere IsStray seen)
    (names : token.kind = .mnemonic name)
    (belong : ∀ operand ∈ operands,
      Statement.isOperandOn token.line operand = true) :
    Nowhere IsStray (seen ++ token :: operands) := by
  have starts := startsStatement_of_mnemonic names
  have withToken : Nowhere IsStray (seen ++ [token]) :=
    nowhere_concat_iff.mpr ⟨nowhere, not_isStray_of_starts starts⟩
  rw [← List.singleton_append, ← List.append_assoc]
  refine nowhere_append withToken fun before found cut stray => ?_
  have silent : ∀ operand ∈ before, operand.startsStatement = false := by
    intro operand member
    refine (Statement.isOperandOn_iff.mp (belong operand ?_)).2
    exact cut.subset (List.mem_append_left _ member)
  have last : lastStart? (seen ++ [token] ++ before) = some token := by
    rw [List.append_assoc, List.singleton_append,
      lastStart?_append_cons starts silent]
  have onLine := (Statement.isOperandOn_iff.mp
    (belong found (cut.subset (by simp)))).1
  rcases stray.2 token last with noMnemonic | otherLine
  · rw [isMnemonic_of_kind names] at noMnemonic
    contradiction
  · exact otherLine onLine.symm

/-- No token of statements is stray. -/
theorem Statement.MadeOf.nowhere_isStray (made : MadeOf rest statements)
    (nowhere : Nowhere IsStray seen) : Nowhere IsStray (seen ++ rest) := by
  induction made generalizing seen with
  | nil =>
      rw [List.append_nil]
      exact nowhere
  | @label token name rest statements declares others inductionHypothesis =>
      rw [← List.singleton_append, ← List.append_assoc]
      refine inductionHypothesis (nowhere_concat_iff.mpr ⟨nowhere, ?_⟩)
      exact not_isStray_of_starts (startsStatement_of_label declares)
  | @instruction token name operands rest statements names belong others
      inductionHypothesis =>
      rw [← List.cons_append, ← List.append_assoc]
      exact inductionHypothesis
        (nowhere_isStray_instruction nowhere names belong)

/-- Tokens that are not grouped are refused for the first stray token.  Where
no statement is open after the tokens that were seen, an operand token is
stray. -/
theorem Statement.firstPlace_of_ofTokens_error
    {parseError : ParseError} (seen : List Token)
    (nowhere : Nowhere IsStray seen)
    (closed : ∀ first ∈ rest.head?,
      first.startsStatement = false → IsStray seen first)
    (fails : ofTokens rest = .error parseError) :
    ∃ before token, FirstPlace IsStray (seen ++ rest) before token ∧
      parseError = ⟨token.line, .expectedMnemonic token.text⟩ := by
  fun_induction ofTokens rest generalizing seen with
  | case1 | case3 | case5 => contradiction
  | case2 token rest name declares error others inductionHypothesis =>
      cases fails
      rw [← List.singleton_append, ← List.append_assoc]
      have starts := startsStatement_of_label declares
      refine inductionHypothesis _
        (nowhere_concat_iff.mpr ⟨nowhere, not_isStray_of_starts starts⟩)
        (fun first member operand => ⟨operand, ?_⟩) others
      rw [lastStart?_append_cons starts (List.forall_mem_nil _)]
      intro start last
      cases last
      exact .inl (isMnemonic_of_label declares)
  | case4 token rest name names error others inductionHypothesis =>
      cases fails
      have belong : ∀ operand ∈ rest.takeWhile (isOperandOn token.line),
          isOperandOn token.line operand = true :=
        List.all_eq_true.mp List.all_takeWhile
      have whole : seen ++ token :: rest =
          (seen ++ token :: rest.takeWhile (isOperandOn token.line)) ++
            rest.dropWhile (isOperandOn token.line) := by
        rw [List.append_assoc, List.cons_append,
          List.takeWhile_append_dropWhile]
      rw [whole]
      refine inductionHypothesis _
        (nowhere_isStray_instruction nowhere names belong)
        (fun first member operand => ⟨operand, ?_⟩) others
      rw [lastStart?_append_cons (startsStatement_of_mnemonic names)
        (fun other among => (isOperandOn_iff.mp (belong other among)).2)]
      intro start last
      cases last
      have otherwise := List.head?_dropWhile_not (isOperandOn token.line) rest
      rw [member] at otherwise
      refine .inr fun sameLine => ?_
      simp [isOperandOn, sameLine, operand] at otherwise
  | case6 token rest noLabel noMnemonic =>
      cases fails
      have operand : token.startsStatement = false := by
        unfold Token.startsStatement
        split <;> simp_all
      exact ⟨seen, token, ⟨by simp, closed token rfl operand, nowhere⟩, rfl⟩

/-! ## Labels -/

/-- Labels of declarations without repeated names are declared once. -/
theorem Token.nowhere_redeclares
    (distinct : LabelTable.Distinct ⟨declarations 0 tokens⟩) :
    Nowhere Redeclares tokens := by
  intro before token cut redeclares
  obtain ⟨earlier, among, name, declares, declared⟩ := redeclares
  obtain ⟨after, rfl⟩ := cut
  unfold LabelTable.Distinct at distinct
  rw [List.append_assoc, declarations_append, List.map_append,
    List.nodup_append] at distinct
  have inBefore : name ∈ (declarations 0 before).map LabelEntry.name :=
    mem_names_declarations_iff.mpr ⟨earlier, among, declared⟩
  refine distinct.2.2 name inBefore name ?_ rfl
  simp [declarations, declares]

theorem LabelTable.firstPlace_of_ofStatements_error
    {parseError : ParseError} (seen : List Token)
    (made : Statement.MadeOf rest statements)
    (nowhere : Nowhere Redeclares seen)
    (fails : LabelTable.ofStatements ⟨declarations 0 seen⟩
      (mnemonicCount seen) statements = .error parseError) :
    ∃ before token earlier name,
      FirstPlace Redeclares (seen ++ rest) before token ∧
      token.kind = .label name ∧ earlier ∈ before ∧
      earlier.kind = .label name ∧
      parseError = ⟨token.line, .duplicateLabel name earlier.line⟩ := by
  induction made generalizing seen with
  | nil => contradiction
  | @label token name rest statements declares others inductionHypothesis =>
      rw [ofStatements, declare] at fails
      cases found : find? ⟨declarations 0 seen⟩ name with
      | some first =>
          simp only [found] at fails
          cases fails
          unfold find? at found
          have named := List.find?_some found
          obtain rfl : first.name = name := of_decide_eq_true named
          obtain ⟨left, earlier, right, rfl, declared, line, _⟩ :=
            mem_declarations_iff.mp (List.mem_of_find?_eq_some found)
          refine ⟨_, token, earlier, first.name, ⟨by simp, ?_, nowhere⟩,
            declares, by simp, declared, by rw [line]⟩
          exact ⟨earlier, by simp, first.name, declares, declared⟩
      | none =>
          simp only [found] at fails
          have fresh : ¬ Redeclares seen token := by
            intro redeclares
            obtain ⟨earlier, among, other, declaresOther, declared⟩ :=
              redeclares
            cases declares.symm.trans declaresOther
            exact find?_eq_none_iff.mp found
              (mem_names_declarations_iff.mpr ⟨earlier, among, declared⟩)
          rw [← List.singleton_append, ← List.append_assoc]
          refine inductionHypothesis _
            (nowhere_concat_iff.mpr ⟨nowhere, fresh⟩) ?_
          rw [declarations_append, Nat.zero_add, mnemonicCount_append]
          simp [declarations, declares, isMnemonic_of_label declares, fails]
  | @instruction token name operands rest statements names belong others
      inductionHypothesis =>
      rw [← List.cons_append, ← List.append_assoc]
      have silent : declarations (mnemonicCount seen) (token :: operands) =
          [] := by
        have none := declarations_operands belong (mnemonicCount seen + 1) []
        rw [List.append_nil] at none
        simp only [declarations, names, none]
      refine inductionHypothesis _ (nowhere_append nowhere ?_) ?_
      · intro before found cut redeclares
        obtain ⟨_, _, other, declares, _⟩ := redeclares
        have member := cut.subset (List.mem_append_right before
          (List.mem_singleton_self found))
        rcases List.mem_cons.mp member with same | operand
        · rw [same, names] at declares
          contradiction
        · have noStart := (Statement.isOperandOn_iff.mp
            (belong found operand)).2
          rw [startsStatement_of_label declares] at noStart
          contradiction
      · rw [declarations_append, Nat.zero_add, silent, List.append_nil,
          Statement.mnemonicCount_instruction seen names belong]
        exact fails

/-! ## Instructions -/

theorem Token.Decodes.unique {outcome other : Except ParseError Instruction}
    (first : Decodes tokens before token outcome)
    (second : Decodes tokens before token other) : outcome = other := by
  obtain ⟨name, after, names, whole, rfl⟩ := first
  obtain ⟨otherName, otherAfter, otherNames, otherWhole, rfl⟩ := second
  obtain ⟨_, same⟩ := List.append_inj (whole.symm.trans otherWhole) rfl
  cases same
  cases names.symm.trans otherNames
  rfl

/-- The operand tokens of an instruction statement end where the next label or
mnemonic stands. -/
theorem Token.decodes_iff {outcome : Except ParseError Instruction}
    (names : token.kind = .mnemonic name)
    (belong : ∀ operand ∈ operands,
      Statement.isOperandOn token.line operand = true)
    (others : Statement.MadeOf rest statements)
    (whole : tokens = seen ++ token :: (operands ++ rest)) :
    Decodes tokens seen token outcome ↔
      Instruction.decode ⟨declarations 0 tokens⟩ (mnemonicCount seen) name
        token.line operands = outcome := by
  have taken : (operands ++ rest).takeWhile
      (fun next => !next.startsStatement) = operands := by
    refine (takeWhile_append_of_stop ?_ ?_).1
    · intro operand member
      rw [(Statement.isOperandOn_iff.mp (belong operand member)).2]
      rfl
    · intro next member
      rw [others.head_startsStatement next member]
      rfl
  constructor
  · intro decodes
    exact Token.Decodes.unique
      ⟨name, operands ++ rest, names, whole, by rw [taken]⟩ decodes
  · intro decodes
    exact ⟨name, operands ++ rest, names, whole, by rw [taken, decodes]⟩

theorem Token.Decodes.isMnemonic {outcome : Except ParseError Instruction}
    (decodes : Decodes tokens before token outcome) :
    token.isMnemonic = true := by
  obtain ⟨name, after, names, _, _⟩ := decodes
  exact isMnemonic_of_kind names

/-- Statements that do not all denote instructions are refused for the first
mnemonic whose statement does not. -/
theorem Instruction.firstPlace_of_ofStatements_error
    {parseError : ParseError} (seen : List Token)
    (made : Statement.MadeOf rest statements)
    (whole : tokens = seen ++ rest)
    (nowhere : Nowhere (IsRefused tokens) seen)
    (fails : Instruction.ofStatements ⟨declarations 0 tokens⟩
      (mnemonicCount seen) statements = .error parseError) :
    ∃ before token, FirstPlace (IsRefused tokens) tokens before token ∧
      Decodes tokens before token (.error parseError) := by
  induction made generalizing seen with
  | nil => contradiction
  | @label token name rest statements declares others inductionHypothesis =>
      have onward : tokens = (seen ++ [token]) ++ rest := by
        rw [whole, List.append_assoc, List.singleton_append]
      refine inductionHypothesis _ onward
        (nowhere_concat_iff.mpr ⟨nowhere, fun refused => ?_⟩) ?_
      · obtain ⟨_, decodes⟩ := refused
        have names := decodes.isMnemonic
        rw [isMnemonic_of_label declares] at names
        contradiction
      · rw [mnemonicCount_append, mnemonicCount_cons,
          isMnemonic_of_label declares]
        exact fails
  | @instruction token name operands rest statements names belong others
      inductionHypothesis =>
      have denotes := fun outcome =>
        @decodes_iff _ _ _ _ _ _ _ outcome names belong others whole
      rw [ofStatements] at fails
      cases decoded : decode ⟨declarations 0 tokens⟩ (mnemonicCount seen) name
          token.line operands with
      | error own =>
          simp only [decoded] at fails
          cases fails
          have refused := (denotes _).mpr decoded
          refine ⟨seen, token, ⟨?_, ⟨_, refused⟩, nowhere⟩, refused⟩
          rw [whole]
          simp
      | ok instruction =>
          simp only [decoded] at fails
          cases decodedOthers : ofStatements ⟨declarations 0 tokens⟩
              (mnemonicCount seen + 1) statements with
          | ok instructions => simp [decodedOthers] at fails
          | error own =>
              simp only [decodedOthers] at fails
              cases fails
              refine inductionHypothesis (seen ++ token :: operands)
                (by rw [whole, List.append_assoc, List.cons_append])
                (nowhere_append nowhere ?_) ?_
              · intro before found cut refused
                obtain ⟨_, decodes⟩ := refused
                cases before with
                | nil =>
                    obtain ⟨rfl, _⟩ := List.cons_prefix_cons.mp cut
                    rw [List.append_nil] at decodes
                    cases decoded.symm.trans ((denotes _).mp decodes)
                | cons first before =>
                    obtain ⟨rfl, inOperands⟩ := List.cons_prefix_cons.mp cut
                    have operand := belong found
                      (inOperands.subset (by simp))
                    have noStart := (Statement.isOperandOn_iff.mp operand).2
                    have names := decodes.isMnemonic
                    rw [isMnemonic_of_operand noStart] at names
                    contradiction
              · rw [Statement.mnemonicCount_instruction seen names belong]
                exact decodedOthers

/-- Statements denote one instruction for each mnemonic, in their order. -/
theorem Instruction.decodes_of_allDenoted {instructions : List Instruction}
    {after : List Token}
    (made : Statement.MadeOf (before ++ token :: after) statements)
    (isMnemonic : token.isMnemonic = true)
    (whole : tokens = before ++ token :: after)
    (denoted : AllDenoted ⟨declarations 0 tokens⟩ 0 statements instructions) :
    ∃ instruction, instructions[mnemonicCount before]? = some instruction ∧
      Decodes tokens before token (.ok instruction) := by
  obtain ⟨earlier, later, rfl, madeBefore, madeAfter⟩ :=
    made.cut_of_starts (startsStatement_of_isMnemonic isMnemonic)
  obtain ⟨first, second, rfl, denotedFirst, denotedSecond⟩ :=
    allDenoted_append_iff.mp denoted
  rw [Nat.zero_add, ← madeBefore.mnemonicCount_eq] at denotedSecond
  cases madeAfter with
  | label declares others =>
      rw [isMnemonic_of_label declares] at isMnemonic
      contradiction
  | instruction names belong others =>
      cases denotedSecond with
      | @instruction _ _ _ _ instruction _ second denotes more =>
          refine ⟨instruction, ?_, ?_⟩
          · rw [madeBefore.mnemonicCount_eq, ← denotedFirst.length_eq,
              List.getElem?_append_right (Nat.le_refl _), Nat.sub_self]
            rfl
          · exact (decodes_iff names belong others whole).mpr
              (decode_eq_ok_iff.mpr denotes)

/-! ## Verdicts -/

theorem verdict_of_ok {program : Program}
    (accepts : Program.ofTokens tokens = .ok program) :
    Verdict tokens (.ok program) := by
  obtain ⟨statements, made, labels, distinct, denoted⟩ :=
    Program.ofTokens_eq_ok_iff.mp accepts
  rw [labels] at distinct denoted
  refine .program (made.nowhere_isStray nowhere_nil)
    (nowhere_redeclares distinct)
    ⟨labels, Program.size_eq_mnemonicCount accepts, ?_⟩
  intro before token after whole isMnemonic
  rw [whole] at made
  rw [← Array.getElem?_toList]
  exact Instruction.decodes_of_allDenoted made isMnemonic whole denoted

/-- Statements are refused for their labels first. -/
theorem verdict_of_statements_error {parseError : ParseError}
    (made : Statement.MadeOf tokens statements)
    (fails : Program.ofStatements statements = .error parseError) :
    Verdict tokens (.error parseError) := by
  have grouped := made.nowhere_isStray nowhere_nil
  unfold Program.ofStatements at fails
  cases bound : LabelTable.empty.ofStatements 0 statements with
  | error own =>
      simp only [bound] at fails
      cases fails
      obtain ⟨before, token, earlier, name, first, declares, among, declared,
        rfl⟩ := LabelTable.firstPlace_of_ofStatements_error [] made
          nowhere_nil bound
      exact .redeclared grouped first declares among declared
  | ok labels =>
      obtain ⟨table, distinct⟩ := (LabelTable.ofStatements_eq_ok_iff
        LabelTable.distinct_empty).mp bound
      rw [made.declarations_eq] at table
      subst table
      simp only [bound] at fails
      cases decoding : Instruction.ofStatements ⟨declarations 0 tokens⟩ 0
          statements with
      | ok instructions => simp [LabelTable.empty, decoding] at fails
      | error own =>
          simp only [LabelTable.empty, List.nil_append, decoding] at fails
          cases fails
          obtain ⟨before, token, first, refused⟩ :=
            Instruction.firstPlace_of_ofStatements_error [] made rfl
              nowhere_nil decoding
          exact .undecodable grouped (nowhere_redeclares distinct) first
            refused

/-- A token list is accepted or refused as a verdict says. -/
theorem verdict_ofTokens (tokens : List Token) :
    Verdict tokens (Program.ofTokens tokens) := by
  cases outcome : Program.ofTokens tokens with
  | ok program => exact verdict_of_ok outcome
  | error parseError =>
      unfold Program.ofTokens at outcome
      cases grouping : Statement.ofTokens tokens with
      | ok statements =>
          simp only [grouping] at outcome
          exact verdict_of_statements_error
            (Statement.ofTokens_eq_ok_iff.mp grouping) outcome
      | error own =>
          simp only [grouping] at outcome
          cases outcome
          obtain ⟨before, token, first, rfl⟩ :=
            Statement.firstPlace_of_ofTokens_error [] nowhere_nil
              (fun first member operand => ⟨operand, by simp [lastStart?]⟩)
              grouping
          exact .stray first

/-- Where no label token repeats a name, one token declares it. -/
theorem Token.eq_of_nowhere_redeclares {first second : Token}
    (distinct : Nowhere Redeclares tokens)
    (firstAmong : first ∈ tokens) (secondAmong : second ∈ tokens)
    (same : first.SameLabel second) : first = second := by
  obtain ⟨name, declares, declared⟩ := same
  obtain ⟨left, right, rfl⟩ := List.append_of_mem firstAmong
  rcases List.mem_append.mp secondAmong with inLeft | inRest
  · have repeats : Redeclares left first :=
      ⟨second, inLeft, name, declares, declared⟩
    exact absurd repeats (distinct left first (by simp))
  rcases List.mem_cons.mp inRest with rfl | inRight
  · rfl
  · obtain ⟨middle, after, rfl⟩ := List.append_of_mem inRight
    have repeats : Redeclares (left ++ first :: middle) second :=
      ⟨first, by simp, name, declared, declares⟩
    exact absurd repeats (distinct _ second (by simp))

theorem Program.IsDenoted.nowhere_isRefused {program : Program}
    (denoted : program.IsDenoted tokens) :
    Nowhere (IsRefused tokens) tokens := by
  intro before token cut isRefused
  obtain ⟨after, whole⟩ := cut
  rw [List.append_assoc, List.singleton_append] at whole
  obtain ⟨parseError, refused⟩ := isRefused
  obtain ⟨instruction, _, accepted⟩ :=
    denoted.decodes before token after whole.symm refused.isMnemonic
  cases refused.unique accepted

/-- Tokens denote one program at most. -/
theorem Program.IsDenoted.unique {program other : Program}
    (first : program.IsDenoted tokens) (second : other.IsDenoted tokens) :
    program = other := by
  have instructions : program.instructions = other.instructions := by
    refine Array.ext (first.size.trans second.size.symm) ?_
    intro index inside insideOther
    obtain ⟨before, token, after, whole, isMnemonic, rfl⟩ :=
      exists_mnemonic (Nat.lt_of_lt_of_eq inside first.size)
    obtain ⟨instruction, found, decodes⟩ :=
      first.decodes before token after whole isMnemonic
    obtain ⟨otherInstruction, foundOther, decodesOther⟩ :=
      second.decodes before token after whole isMnemonic
    cases decodes.unique decodesOther
    rw [Array.getElem?_eq_getElem inside] at found
    rw [Array.getElem?_eq_getElem insideOther] at foundOther
    exact Option.some.inj (found.trans foundOther.symm)
  have labels := first.labels.trans second.labels.symm
  cases program
  cases other
  cases instructions
  cases labels
  rfl

/-- A token list has one verdict only. -/
theorem Verdict.unique {result other : Except ParseError Program}
    (first : Verdict tokens result) (second : Verdict tokens other) :
    result = other := by
  cases first with
  | stray first =>
      cases second with
      | stray second =>
          obtain ⟨_, rfl⟩ := first.unique second
          rfl
      | redeclared grouped | undecodable grouped | program grouped =>
          exact absurd grouped first.not_nowhere
  | redeclared grouped first declares among declared =>
      cases second with
      | stray second => exact absurd grouped second.not_nowhere
      | redeclared _ second declaresOther amongOther declaredOther =>
          obtain ⟨rfl, rfl⟩ := first.unique second
          cases declares.symm.trans declaresOther
          rw [eq_of_nowhere_redeclares first.noneBefore among amongOther
            ⟨_, declared, declaredOther⟩]
      | undecodable _ distinct | program _ distinct =>
          exact absurd distinct first.not_nowhere
  | undecodable grouped distinct first refused =>
      cases second with
      | stray second => exact absurd grouped second.not_nowhere
      | redeclared _ second => exact absurd distinct second.not_nowhere
      | undecodable _ _ second refusedOther =>
          obtain ⟨rfl, rfl⟩ := first.unique second
          cases refused.unique refusedOther
          rfl
      | program _ _ denoted =>
          exact absurd denoted.nowhere_isRefused first.not_nowhere
  | program grouped distinct denoted =>
      cases second with
      | stray second => exact absurd grouped second.not_nowhere
      | redeclared _ second => exact absurd distinct second.not_nowhere
      | undecodable _ _ second =>
          exact absurd denoted.nowhere_isRefused second.not_nowhere
      | program _ _ denotedOther => rw [denoted.unique denotedOther]

/-- **Diagnosis.**  Whatever becomes of a token list is the only verdict on it:
it is refused for its first stray operand token, or else for its first label
token that repeats a name, or else for the first mnemonic whose statement
denotes no instruction; and it is the program that its tokens denote exactly
where there is none of these. -/
theorem Program.outcome_iff_verdict (tokens : List Token) :
    (∀ result, ofTokens tokens = result ↔ Verdict tokens result) ∧
    ((∃ program, ofTokens tokens = .ok program ∧
        program.IsDenoted tokens) ↔
      Nowhere IsStray tokens ∧ Nowhere Redeclares tokens ∧
        Nowhere (IsRefused tokens) tokens) := by
  have verdict := verdict_ofTokens tokens
  refine ⟨fun result => ⟨?_, verdict.unique⟩, ?_, ?_⟩
  · intro outcome
    rw [← outcome]
    exact verdict
  · intro accepts
    obtain ⟨program, accepted, denoted⟩ := accepts
    rw [accepted] at verdict
    cases verdict with
    | program grouped distinct denoted =>
        exact ⟨grouped, distinct, denoted.nowhere_isRefused⟩
  · intro faultless
    obtain ⟨grouped, distinct, decodes⟩ := faultless
    generalize ofTokens tokens = result at verdict
    cases verdict with
    | stray first => exact absurd grouped first.not_nowhere
    | redeclared _ first => exact absurd distinct first.not_nowhere
    | undecodable _ _ first => exact absurd decodes first.not_nowhere
    | program _ _ denoted => exact ⟨_, rfl, denoted⟩

/-- A repeated label and an unknown mnemonic do not matter while an operand
stands on a line of its own. -/
example : Program.ofTokens
    [⟨.label "loop", "loop:", 2⟩, ⟨.label "loop", "loop:", 1⟩,
      ⟨.mnemonic "jmp", "jmp", 3⟩, ⟨.immediate 7, "7", 4⟩] =
    .error ⟨4, .expectedMnemonic "7"⟩ := by
  decide +kernel

end MiniMips
