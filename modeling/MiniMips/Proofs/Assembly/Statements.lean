import MiniMips.Assembly.Statement
import MiniMips.Proofs.Lists

/-!
Contract: token lists as sequences of statements.

Owns:
- the relation between tokens and the statements that they make up, and that
  grouping computes it;
- statements and tokens counted alike;
- the operand tokens of a token list: which statement each belongs to, and that
  only its line and its kind of token matter for the grouping.
-/

namespace MiniMips

def Token.isMnemonic (token : Token) : Bool :=
  match token.kind with
  | .mnemonic _ => true
  | _ => false

theorem Token.isMnemonic_of_kind {token : Token} {name : String}
    (names : token.kind = .mnemonic name) : token.isMnemonic = true := by
  simp only [isMnemonic, names]

theorem Token.isMnemonic_of_label {token : Token} {name : String}
    (declares : token.kind = .label name) : token.isMnemonic = false := by
  simp only [isMnemonic, declares]

theorem Token.isMnemonic_of_operand {token : Token}
    (operand : token.startsStatement = false) : token.isMnemonic = false := by
  unfold startsStatement at operand
  unfold isMnemonic
  split at operand <;> simp_all

theorem Token.startsStatement_of_label {token : Token} {name : String}
    (declares : token.kind = .label name) : token.startsStatement = true := by
  simp only [startsStatement, declares]

theorem Token.startsStatement_of_mnemonic {token : Token} {name : String}
    (names : token.kind = .mnemonic name) : token.startsStatement = true := by
  simp only [startsStatement, names]

theorem Token.startsStatement_of_isMnemonic {token : Token}
    (isMnemonic : token.isMnemonic = true) :
    token.startsStatement = true := by
  by_contra noStart
  rw [isMnemonic_of_operand (Bool.eq_false_iff.mpr noStart)] at isMnemonic
  contradiction

/-- How many mnemonics there are among tokens. -/
def Token.mnemonicCount (tokens : List Token) : Nat :=
  tokens.countP Token.isMnemonic

@[simp] theorem Token.mnemonicCount_nil : mnemonicCount [] = 0 := rfl

@[simp] theorem Token.mnemonicCount_cons (token : Token)
    (tokens : List Token) :
    mnemonicCount (token :: tokens) =
      mnemonicCount tokens + if token.isMnemonic then 1 else 0 :=
  List.countP_cons

@[simp] theorem Token.mnemonicCount_append (before after : List Token) :
    mnemonicCount (before ++ after) =
      mnemonicCount before + mnemonicCount after :=
  List.countP_append

/-- There is a mnemonic with every lower number of mnemonics before it. -/
theorem Token.exists_mnemonic {tokens : List Token} {index : Nat}
    (inside : index < mnemonicCount tokens) :
    ∃ before token after, tokens = before ++ token :: after ∧
      token.isMnemonic = true ∧ mnemonicCount before = index := by
  induction tokens generalizing index with
  | nil => simp at inside
  | cons first rest inductionHypothesis =>
      rw [mnemonicCount_cons] at inside
      by_cases names : first.isMnemonic = true
      · rw [if_pos names] at inside
        cases index with
        | zero => exact ⟨[], first, rest, rfl, names, rfl⟩
        | succ index =>
            obtain ⟨before, token, after, rfl, isMnemonic, rfl⟩ :=
              inductionHypothesis (Nat.lt_of_succ_lt_succ inside)
            refine ⟨first :: before, token, after, rfl, isMnemonic, ?_⟩
            rw [mnemonicCount_cons, if_pos names]
      · rw [if_neg names] at inside
        obtain ⟨before, token, after, rfl, isMnemonic, rfl⟩ :=
          inductionHypothesis inside
        refine ⟨first :: before, token, after, rfl, isMnemonic, ?_⟩
        rw [mnemonicCount_cons, if_neg names, Nat.add_zero]

namespace Statement

def isInstruction : Statement → Bool
  | .label _ _ => false
  | .instruction _ _ _ => true

/-- How many instructions there are among statements. -/
def instructionCount (statements : List Statement) : Nat :=
  statements.countP isInstruction

@[simp] theorem instructionCount_nil : instructionCount [] = 0 := rfl

@[simp] theorem instructionCount_label (name : String) (line : Nat)
    (statements : List Statement) :
    instructionCount (.label name line :: statements) =
      instructionCount statements := rfl

@[simp] theorem instructionCount_instruction (name : String) (line : Nat)
    (operands : List Token) (statements : List Statement) :
    instructionCount (.instruction name line operands :: statements) =
      instructionCount statements + 1 :=
  List.countP_cons_of_pos rfl

@[simp] theorem instructionCount_append (earlier later : List Statement) :
    instructionCount (earlier ++ later) =
      instructionCount earlier + instructionCount later :=
  List.countP_append

/-- Tokens make up statements: each label one, and each mnemonic one together
with the operand tokens after it, all of which are on its line. -/
inductive MadeOf : List Token → List Statement → Prop where
  | nil : MadeOf [] []
  | label {token : Token} {name : String} {rest : List Token}
      {statements : List Statement}
      (declares : token.kind = .label name)
      (others : MadeOf rest statements) :
      MadeOf (token :: rest) (.label name token.line :: statements)
  | instruction {token : Token} {name : String} {operands rest : List Token}
      {statements : List Statement}
      (names : token.kind = .mnemonic name)
      (belong : ∀ operand ∈ operands, isOperandOn token.line operand = true)
      (others : MadeOf rest statements) :
      MadeOf (token :: (operands ++ rest))
        (.instruction name token.line operands :: statements)

variable {tokens before after : List Token} {token : Token}
  {statements earlier later : List Statement}

theorem isOperandOn_iff {line : Nat} :
    isOperandOn line token = true ↔
      token.line = line ∧ token.startsStatement = false := by
  simp [isOperandOn]

/-- What makes up statements begins with no operand. -/
theorem MadeOf.head_startsStatement
    (made : MadeOf tokens statements) :
    ∀ first ∈ tokens.head?, first.startsStatement = true := by
  cases made with
  | nil => simp
  | label declares others => simp [Token.startsStatement, declares]
  | instruction names belong others => simp [Token.startsStatement, names]

/-- The operands of a mnemonic end where the next statement begins. -/
theorem takeWhile_isOperandOn {line : Nat} {operands : List Token}
    (belong : ∀ operand ∈ operands, isOperandOn line operand = true)
    (made : MadeOf tokens statements) :
    (operands ++ tokens).takeWhile (isOperandOn line) = operands ∧
      (operands ++ tokens).dropWhile (isOperandOn line) = tokens := by
  refine takeWhile_append_of_stop belong fun first member => ?_
  simp [isOperandOn, made.head_startsStatement first member]

/-- **Grouping.**  Tokens are grouped into the statements that they make up. -/
theorem ofTokens_eq_ok_iff :
    ofTokens tokens = .ok statements ↔ MadeOf tokens statements := by
  constructor
  · intro grouped
    fun_induction ofTokens tokens generalizing statements with
    | case1 =>
        cases grouped
        exact .nil
    | case2 | case4 | case6 => contradiction
    | case3 token rest name declares others grouping inductionHypothesis =>
        cases grouped
        exact .label declares (inductionHypothesis grouping)
    | case5 token rest name names others grouping inductionHypothesis =>
        cases grouped
        have belong : ∀ operand ∈ rest.takeWhile (isOperandOn token.line),
            isOperandOn token.line operand = true :=
          List.all_eq_true.mp List.all_takeWhile
        have made := MadeOf.instruction names belong
          (inductionHypothesis grouping)
        rw [List.takeWhile_append_dropWhile] at made
        exact made
  · intro made
    induction made with
    | nil => rw [ofTokens]
    | label declares others inductionHypothesis =>
        rw [ofTokens]
        simp only [declares, inductionHypothesis]
    | instruction names belong others inductionHypothesis =>
        obtain ⟨taken, dropped⟩ := takeWhile_isOperandOn belong others
        rw [ofTokens]
        simp only [names, taken, dropped, inductionHypothesis]

/-- The operand tokens of a statement are among the tokens. -/
theorem MadeOf.operand_mem (made : MadeOf tokens statements)
    {name : String} {line : Nat} {operands : List Token}
    (among : .instruction name line operands ∈ statements)
    (belongs : token ∈ operands) : token ∈ tokens := by
  induction made with
  | nil => simp at among
  | label declares others inductionHypothesis =>
      rcases List.mem_cons.mp among with same | inRest
      · contradiction
      · exact List.mem_cons_of_mem _ (inductionHypothesis inRest)
  | instruction names belong others inductionHypothesis =>
      rcases List.mem_cons.mp among with same | inRest
      · cases same
        exact List.mem_cons_of_mem _ (List.mem_append_left _ belongs)
      · exact List.mem_cons_of_mem _
          (List.mem_append_right _ (inductionHypothesis inRest))

/-! ## Joining and cutting -/

theorem MadeOf.append (first : MadeOf before earlier)
    (second : MadeOf after later) :
    MadeOf (before ++ after) (earlier ++ later) := by
  induction first with
  | nil => exact second
  | label declares others inductionHypothesis =>
      exact .label declares inductionHypothesis
  | instruction names belong others inductionHypothesis =>
      rw [List.cons_append, List.append_assoc]
      exact .instruction names belong inductionHypothesis

/-- Statements are cut where a label or a mnemonic stands. -/
theorem MadeOf.cut_of_starts
    (made : MadeOf (before ++ token :: after) statements)
    (starts : token.startsStatement = true) :
    ∃ earlier later, statements = earlier ++ later ∧
      MadeOf before earlier ∧ MadeOf (token :: after) later := by
  generalize whole : before ++ token :: after = tokens at made
  induction made generalizing before with
  | nil => simp at whole
  | @label first name rest statements declares others inductionHypothesis =>
      cases before with
      | nil =>
          obtain ⟨rfl, rfl⟩ := List.cons.inj whole
          exact ⟨[], _, rfl, .nil, .label declares others⟩
      | cons head before =>
          obtain ⟨rfl, same⟩ := List.cons.inj whole
          obtain ⟨earlier, later, rfl, madeBefore, madeAfter⟩ :=
            inductionHypothesis same
          exact ⟨_ :: earlier, later, rfl, .label declares madeBefore,
            madeAfter⟩
  | @instruction first name operands rest statements names belong others
      inductionHypothesis =>
      cases before with
      | nil =>
          obtain ⟨rfl, rfl⟩ := List.cons.inj whole
          exact ⟨[], _, rfl, .nil, .instruction names belong others⟩
      | cons head before =>
          obtain ⟨rfl, same⟩ := List.cons.inj whole
          rcases cut_append same with ⟨right, rfl, rfl⟩ | ⟨middle, rfl, rfl⟩
          · have noStart := (isOperandOn_iff.mp (belong token (by simp))).2
            rw [starts] at noStart
            contradiction
          · obtain ⟨earlier, later, rfl, madeBefore, madeAfter⟩ :=
              inductionHypothesis rfl
            exact ⟨_ :: earlier, later, rfl,
              .instruction names belong madeBefore, madeAfter⟩

theorem mnemonicCount_operands {line : Nat} {operands : List Token}
    (belong : ∀ operand ∈ operands, isOperandOn line operand = true) :
    Token.mnemonicCount operands = 0 := by
  refine List.countP_eq_zero.mpr fun operand member => ?_
  obtain ⟨_, noStart⟩ := isOperandOn_iff.mp (belong operand member)
  simp [Token.isMnemonic_of_operand noStart]

theorem mnemonicCount_instruction (seen : List Token) {name : String}
    {operands : List Token} (names : token.kind = .mnemonic name)
    (belong : ∀ operand ∈ operands, isOperandOn token.line operand = true) :
    Token.mnemonicCount (seen ++ token :: operands) =
      Token.mnemonicCount seen + 1 := by
  rw [Token.mnemonicCount_append, Token.mnemonicCount_cons,
    mnemonicCount_operands belong, Token.isMnemonic_of_kind names]
  rfl

/-- There are as many instructions as mnemonics. -/
theorem MadeOf.mnemonicCount_eq (made : MadeOf tokens statements) :
    Token.mnemonicCount tokens = instructionCount statements := by
  induction made with
  | nil => rfl
  | label declares others inductionHypothesis =>
      simp [Token.isMnemonic_of_label declares, inductionHypothesis]
  | instruction names belong others inductionHypothesis =>
      simp [Token.isMnemonic_of_kind names, mnemonicCount_operands belong,
        inductionHypothesis]

theorem belong_exchange {line : Nat} {left right : List Token}
    {replacement : Token}
    (belong : ∀ operand ∈ left ++ token :: right,
      isOperandOn line operand = true)
    (stays : isOperandOn line replacement = true) :
    ∀ operand ∈ left ++ replacement :: right,
      isOperandOn line operand = true := by
  intro operand member
  rcases List.mem_append.mp member with inLeft | inRest
  · exact belong operand (List.mem_append_left _ inLeft)
  rcases List.mem_cons.mp inRest with rfl | inRight
  · exact stays
  · exact belong operand
      (List.mem_append_right _ (List.mem_cons_of_mem _ inRight))

/-- An operand token of a mnemonic, and what could stand in its place. -/
theorem MadeOf.exchange_operand {first : Token} {name : String}
    {left right rest : List Token} (names : first.kind = .mnemonic name)
    (belong : ∀ operand ∈ left ++ token :: right,
      isOperandOn first.line operand = true)
    (others : MadeOf rest statements) :
    token.line = first.line ∧
      Token.mnemonicCount (first :: left) = 1 ∧
      ∀ replacement : Token, replacement.line = token.line →
        replacement.startsStatement = false →
        MadeOf (first :: (left ++ replacement :: (right ++ rest)))
          (.instruction name token.line (left ++ replacement :: right) ::
            statements) := by
  have sameLine := (isOperandOn_iff.mp (belong token (by simp))).1
  have silent : Token.mnemonicCount left = 0 :=
    mnemonicCount_operands (fun other member => belong other (by simp [member]))
  refine ⟨sameLine, by simp [Token.isMnemonic_of_kind names, silent], ?_⟩
  intro replacement onLine noStart
  have stays : isOperandOn first.line replacement = true :=
    isOperandOn_iff.mpr ⟨onLine.trans sameLine, noStart⟩
  have exchanged :=
    MadeOf.instruction names (belong_exchange belong stays) others
  rw [List.append_assoc, List.cons_append] at exchanged
  rw [sameLine]
  exact exchanged

/-- An operand token belongs to the instruction of the last mnemonic before it,
and any operand token on the same line could stand in its place. -/
theorem MadeOf.exists_of_operand
    (made : MadeOf (before ++ token :: after) statements)
    (operand : token.startsStatement = false) :
    ∃ earlier name left right later,
      statements =
        earlier ++ .instruction name token.line (left ++ token :: right) ::
          later ∧
      Token.mnemonicCount before = instructionCount earlier + 1 ∧
      ∀ replacement : Token, replacement.line = token.line →
        replacement.startsStatement = false →
        MadeOf (before ++ replacement :: after)
          (earlier ++ .instruction name token.line
            (left ++ replacement :: right) :: later) := by
  generalize whole : before ++ token :: after = tokens at made
  induction made generalizing before with
  | nil => simp at whole
  | @label first name rest statements declares others inductionHypothesis =>
      cases before with
      | nil =>
          obtain ⟨rfl, rfl⟩ := List.cons.inj whole
          simp [Token.startsStatement, declares] at operand
      | cons head before =>
          obtain ⟨rfl, same⟩ := List.cons.inj whole
          obtain ⟨earlier, mnemonic, left, right, later, rfl, count, exchange⟩ :=
            inductionHypothesis same
          refine ⟨.label name head.line :: earlier, mnemonic, left, right,
            later, rfl, ?_, fun replacement sameLine noStart =>
              .label declares (exchange replacement sameLine noStart)⟩
          simp [Token.isMnemonic_of_label declares, count]
  | @instruction first name operands rest statements names belong others
      inductionHypothesis =>
      cases before with
      | nil =>
          obtain ⟨rfl, rfl⟩ := List.cons.inj whole
          simp [Token.startsStatement, names] at operand
      | cons head before =>
          obtain ⟨rfl, same⟩ := List.cons.inj whole
          rcases cut_append same with ⟨right, rfl, rfl⟩ | ⟨middle, rfl, rfl⟩
          · obtain ⟨sameLine, count, exchange⟩ :=
              MadeOf.exchange_operand names belong others
            refine ⟨[], name, before, right, statements, ?_, count, exchange⟩
            rw [sameLine]
            rfl
          · obtain ⟨earlier, mnemonic, left, right, later, rfl, count,
              exchange⟩ := inductionHypothesis rfl
            refine ⟨.instruction name head.line operands :: earlier, mnemonic,
              left, right, later, rfl, ?_, ?_⟩
            · simp [Token.isMnemonic_of_kind names,
                mnemonicCount_operands belong, count]
            · intro replacement sameLine noStart
              rw [List.cons_append, List.append_assoc]
              exact .instruction names belong
                (exchange replacement sameLine noStart)

end Statement

end MiniMips
