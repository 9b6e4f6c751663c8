import MiniMips.Proofs.Assembly.Diagnosis

/-!
Contract: token lists that denote the same program in other words.

Owns:
- variations: replacing the names of labels, and letting lines and the texts
  that faults quote differ;
- that labels are bound and operands are decoded alike in token lists that a
  variation relates;
- that such lists are accepted or refused alike, as long as the same operand
  tokens of them are stray.

Does not own: which operand tokens are stray.  This depends on lines.
-/

namespace MiniMips

/-- Two computations fail with related errors or succeed with related
values. -/
inductive AlikeOutcomes {ε ε' α β : Type} (errors : ε → ε' → Prop)
    (values : α → β → Prop) : Except ε α → Except ε' β → Prop where
  | error {error : ε} {other : ε'} (alike : errors error other) :
      AlikeOutcomes errors values (.error error) (.error other)
  | ok {value : α} {other : β} (alike : values value other) :
      AlikeOutcomes errors values (.ok value) (.ok other)

theorem AlikeOutcomes.error_or_ok {ε ε' α β : Type} {errors : ε → ε' → Prop}
    {values : α → β → Prop} {first : Except ε α} {second : Except ε' β}
    (alike : AlikeOutcomes errors values first second) :
    (∃ error other, first = .error error ∧ second = .error other ∧
        errors error other) ∨
      ∃ value other, first = .ok value ∧ second = .ok other ∧
        values value other := by
  cases alike with
  | error alike => exact .inl ⟨_, _, rfl, rfl, alike⟩
  | ok alike => exact .inr ⟨_, _, rfl, rfl, alike⟩

/-- Replace the name that a token declares or refers to. -/
def TokenKind.rename (rename : String → String) : TokenKind → TokenKind
  | .label name => .label (rename name)
  | .symbol name => .symbol (rename name)
  | kind => kind

def Operand.rename (rename : String → String) : Operand → Operand
  | .symbol name => .symbol (rename name)
  | operand => operand

/-- Replace the label of an instruction, and put it on another line. -/
def Instruction.recast (rename : String → String) (line : Nat)
    (instruction : Instruction) : Instruction :=
  { instruction with
    label? := instruction.label?.map rename
    line := line }

/-- What may differ between token lists that denote the same program. -/
structure Variation where
  /-- The name that stands for a name. -/
  rename : String → String
  /-- The lines that may stand for a line. -/
  line : Nat → Nat → Prop
  /-- The texts that a fault may quote in place of a text. -/
  quote : String → String → Prop
  injective : Function.Injective rename
  quote_intercalate : ∀ (separator : String) {texts others : List String},
    List.Forall₂ quote texts others →
    quote (separator.intercalate texts) (separator.intercalate others)
  quote_operand : ∀ operand : Operand,
    quote operand.text (operand.rename rename).text

structure Token.Corresponds (variation : Variation) (token other : Token) :
    Prop where
  kind : other.kind = token.kind.rename variation.rename
  line : variation.line token.line other.line
  text : variation.quote token.text other.text

structure LabelEntry.Corresponds (variation : Variation)
    (entry other : LabelEntry) : Prop where
  name : other.name = variation.rename entry.name
  index : other.index = entry.index
  line : variation.line entry.line other.line

def LabelTable.Corresponds (variation : Variation)
    (labels others : LabelTable) : Prop :=
  List.Forall₂ (LabelEntry.Corresponds variation) labels.entries others.entries

structure Instruction.Corresponds (variation : Variation)
    (instruction other : Instruction) : Prop where
  same : other = instruction.recast variation.rename other.line
  line : variation.line instruction.line other.line

structure Program.Corresponds (variation : Variation)
    (program other : Program) : Prop where
  instructions : List.Forall₂ (Instruction.Corresponds variation)
    program.instructions.toList other.instructions.toList
  labels : program.labels.Corresponds variation other.labels

/-- Faults of the same kind.  What is quoted and which lines are named may
differ as the variation allows. -/
inductive ParseFault.Corresponds (variation : Variation) :
    ParseFault → ParseFault → Prop where
  | unknownMnemonic (mnemonic : String) :
      Corresponds variation (.unknownMnemonic mnemonic)
        (.unknownMnemonic mnemonic)
  | operandMismatch (mnemonic expected : String) {found other : String}
      (quoted : variation.quote found other) :
      Corresponds variation (.operandMismatch mnemonic expected found)
        (.operandMismatch mnemonic expected other)
  | unresolvedLabel (label : String) :
      Corresponds variation (.unresolvedLabel label)
        (.unresolvedLabel (variation.rename label))
  | duplicateLabel (label : String) {firstLine otherLine : Nat}
      (line : variation.line firstLine otherLine) :
      Corresponds variation (.duplicateLabel label firstLine)
        (.duplicateLabel (variation.rename label) otherLine)
  | expectedMnemonic {found other : String}
      (quoted : variation.quote found other) :
      Corresponds variation (.expectedMnemonic found)
        (.expectedMnemonic other)
  | shiftOutOfRange (amount : Int32) :
      Corresponds variation (.shiftOutOfRange amount)
        (.shiftOutOfRange amount)

structure ParseError.Corresponds (variation : Variation)
    (parseError other : ParseError) : Prop where
  line : variation.line parseError.line other.line
  fault : parseError.fault.Corresponds variation other.fault

variable {variation : Variation} {token other : Token}
  {tokens others before otherBefore : List Token}
  {labels otherLabels : LabelTable} {address line otherLine : Nat}

/-! ## Tokens -/

theorem Token.Corresponds.startsStatement_eq
    (corresponds : token.Corresponds variation other) :
    token.startsStatement = other.startsStatement := by
  unfold startsStatement
  rw [corresponds.kind]
  cases token.kind <;> rfl

theorem Token.Corresponds.isMnemonic_eq
    (corresponds : token.Corresponds variation other) :
    token.isMnemonic = other.isMnemonic := by
  unfold isMnemonic
  rw [corresponds.kind]
  cases token.kind <;> rfl

theorem Token.mnemonicCount_eq_of_forall₂
    (related : List.Forall₂ (Token.Corresponds variation) tokens others) :
    mnemonicCount tokens = mnemonicCount others := by
  induction related with
  | nil => rfl
  | cons corresponds _ inductionHypothesis =>
      rw [mnemonicCount_cons, mnemonicCount_cons, inductionHypothesis,
        corresponds.isMnemonic_eq]

/-- The last labels or mnemonics of related token lists are related. -/
theorem Token.rel_lastStart?
    (related : List.Forall₂ (Token.Corresponds variation) tokens others) :
    Option.Rel (Token.Corresponds variation) (lastStart? tokens)
      (lastStart? others) :=
  rel_find?_of_forall₂ (List.rel_reverse related)
    (fun _ _ corresponds => corresponds.startsStatement_eq)

/-! ## Labels -/

theorem Token.forall₂_declarations
    (related : List.Forall₂ (Token.Corresponds variation) tokens others)
    (address : Nat) :
    List.Forall₂ (LabelEntry.Corresponds variation)
      (declarations address tokens) (declarations address others) := by
  induction related generalizing address with
  | nil => exact .nil
  | @cons token other _ _ corresponds _ inductionHypothesis =>
      rw [declarations, declarations, corresponds.kind]
      cases token.kind with
      | label name =>
          exact .cons ⟨rfl, rfl, corresponds.line⟩
            (inductionHypothesis address)
      | mnemonic name => exact inductionHypothesis (address + 1)
      | _ => exact inductionHypothesis address

theorem LabelTable.Corresponds.resolve?_eq
    (tables : labels.Corresponds variation otherLabels) (name : String) :
    otherLabels.resolve? (variation.rename name) = labels.resolve? name := by
  have sameName : ∀ entry other : LabelEntry,
      entry.Corresponds variation other →
      decide (entry.name = name) =
        decide (other.name = variation.rename name) := by
    intro entry other corresponds
    rw [corresponds.name, decide_eq_decide, variation.injective.eq_iff]
  exact (map_eq_of_rel (rel_find?_of_forall₂ tables sameName)
    (fun _ _ corresponds => corresponds.index.symm)).symm

theorem LabelTable.Corresponds.nameAt?_eq
    (tables : labels.Corresponds variation otherLabels) (index : Nat) :
    otherLabels.nameAt? index =
      (labels.nameAt? index).map variation.rename := by
  have sameIndex : ∀ entry other : LabelEntry,
      entry.Corresponds variation other →
      decide (entry.index = index) = decide (other.index = index) := by
    intro entry other corresponds
    rw [corresponds.index]
  unfold nameAt?
  rw [Option.map_map]
  exact (map_eq_of_rel (rel_find?_of_forall₂ tables sameIndex)
    (fun _ _ corresponds => corresponds.name.symm)).symm

/-! ## Operands -/

/-- No other token takes the part of a register or a parenthesis. -/
theorem TokenKind.rename_eq_iff {rename : String → String}
    {kind stays : TokenKind} (unnamed : ∀ name, stays ≠ .label name ∧
      stays ≠ .symbol name) :
    kind.rename rename = stays ↔ kind = stays := by
  cases kind with
  | label name | symbol name =>
      constructor
      · rintro rfl
        simp [TokenKind.rename] at unnamed
      · rintro rfl
        simp at unnamed
  | _ => exact Iff.rfl

/-- What is left of a memory operand after its parenthesis. -/
theorem TokenKind.exists_closed_of_map_rename {rename : String → String}
    {kinds others : List TokenKind} {base : UInt8}
    (closed : kinds.map (TokenKind.rename rename) =
      .register base :: .closeParenthesis :: others) :
    ∃ rest, kinds = .register base :: .closeParenthesis :: rest := by
  obtain ⟨first, _, rfl, isBase, tail⟩ := List.map_eq_cons_iff.mp closed
  obtain ⟨second, rest, rfl, closes, _⟩ := List.map_eq_cons_iff.mp tail
  rw [rename_eq_iff (by simp)] at isBase closes
  exact ⟨rest, by rw [isBase, closes]⟩

/-- Operands are grouped alike whatever their symbols are. -/
theorem Operand.ofKinds?_rename (rename : String → String)
    (kinds : List TokenKind) :
    ofKinds? (kinds.map (TokenKind.rename rename)) =
      (ofKinds? kinds).map (List.map (Operand.rename rename)) := by
  fun_induction ofKinds? kinds with
  | case1 => rfl
  | case2 offset base rest inductionHypothesis
  | case4 base rest inductionHypothesis
  | case5 index rest inductionHypothesis
  | case7 name rest inductionHypothesis =>
      simp only [List.map_cons, TokenKind.rename, ofKinds?, inductionHypothesis,
        Option.map_map]
      rfl
  | case3 offset rest notClosed =>
      simp only [List.map_cons, TokenKind.rename]
      rw [ofKinds?]
      · rfl
      · intro base others closed
        obtain ⟨after, rfl⟩ := TokenKind.exists_closed_of_map_rename closed
        exact notClosed base after rfl
  | case6 value rest notClosed noOffset inductionHypothesis =>
      simp only [List.map_cons, TokenKind.rename]
      have stays : ∀ others,
          rest.map (TokenKind.rename rename) ≠ .openParenthesis :: others := by
        intro others opened
        obtain ⟨first, after, rfl, opens, _⟩ := List.map_eq_cons_iff.mp opened
        rw [TokenKind.rename_eq_iff (by simp)] at opens
        exact noOffset after (by rw [opens])
      rw [ofKinds?, inductionHypothesis, Option.map_map]
      · simp only [Option.map_map]
        rfl
      · intro base others
        exact stays _
      · intro others
        exact stays others
  | case8 kinds noKind _ _ noMemory noRegister noImmediate noSymbol =>
      cases kinds with
      | nil => exact absurd rfl noKind
      | cons kind rest =>
          cases kind with
          | register index => exact absurd rfl (noRegister index rest)
          | immediate value => exact absurd rfl (noImmediate value rest)
          | symbol name => exact absurd rfl (noSymbol name rest)
          | label name | mnemonic name | closeParenthesis => rfl
          | openParenthesis =>
              simp only [List.map_cons, TokenKind.rename]
              rw [ofKinds?]
              · rfl
              all_goals simp only [List.cons.injEq, reduceCtorEq, false_and,
                IsEmpty.forall_iff, implies_true]
              · rintro base others ⟨_, closed⟩
                obtain ⟨after, rfl⟩ :=
                  TokenKind.exists_closed_of_map_rename closed
                exact noMemory base after rfl

theorem OperandSlot.acceptAll_rename (rename : String → String)
    (slots : List OperandSlot) (operands : List Operand) :
    acceptAll slots (operands.map (Operand.rename rename)) =
      acceptAll slots operands := by
  induction slots generalizing operands with
  | nil => cases operands <;> rfl
  | cons slot slots inductionHypothesis =>
      cases operands with
      | nil => rfl
      | cons operand operands =>
          have same : slot.accepts (operand.rename rename) =
              slot.accepts operand := by
            cases operand <;> cases slot <;> rfl
          rw [List.map_cons, acceptAll, acceptAll, same,
            inductionHypothesis operands]

theorem Token.kinds_eq_of_forall₂
    (related : List.Forall₂ (Token.Corresponds variation) tokens others) :
    others.map Token.kind =
      (tokens.map Token.kind).map (TokenKind.rename variation.rename) := by
  induction related with
  | nil => rfl
  | cons corresponds _ inductionHypothesis =>
      simp only [List.map_cons, corresponds.kind, inductionHypothesis]

/-! ## Instructions -/

namespace Instruction

theorem fill_alike (tables : labels.Corresponds variation otherLabels)
    (address line : Nat) (instruction : Instruction) (slot : OperandSlot)
    (operand : Operand) :
    AlikeOutcomes (ParseFault.Corresponds variation)
      (fun filled other => other = filled.recast variation.rename line)
      (instruction.fill labels address slot operand)
      ((instruction.recast variation.rename line).fill otherLabels address slot
        (operand.rename variation.rename)) := by
  have mismatches : ∀ operand : Operand,
      (mismatch instruction.opcode operand.text).Corresponds variation
        (mismatch instruction.opcode
          (operand.rename variation.rename).text) :=
    fun operand => .operandMismatch _ _ (variation.quote_operand operand)
  cases slot with
  | rd | rs | rt =>
      cases operand with
      | register index => exact .ok rfl
      | _ => exact .error (mismatches _)
  | immediate =>
      cases operand with
      | immediate value => exact .ok rfl
      | _ => exact .error (mismatches _)
  | memory =>
      cases operand with
      | memory offset base => exact .ok rfl
      | _ => exact .error (mismatches _)
  | shiftAmount =>
      cases operand with
      | immediate value =>
          by_cases inRange : 0 ≤ value ∧ value ≤ largestShift
          · simp only [Operand.rename, fill, if_pos inRange]
            exact .ok rfl
          · simp only [Operand.rename, fill, if_neg inRange]
            exact .error (.shiftOutOfRange value)
      | _ => exact .error (mismatches _)
  | branchTarget | jumpTarget =>
      cases operand with
      | immediate value => exact .ok rfl
      | symbol name =>
          simp only [Operand.rename, fill, tables.resolve?_eq]
          cases labels.resolve? name with
          | none => exact .error (.unresolvedLabel name)
          | some destination => exact .ok rfl
      | _ => exact .error (mismatches _)

theorem fillAll_alike (tables : labels.Corresponds variation otherLabels)
    (address line : Nat) (instruction : Instruction)
    (slots : List OperandSlot) (operands : List Operand) :
    AlikeOutcomes (ParseFault.Corresponds variation)
      (fun filled other => other = filled.recast variation.rename line)
      (fillAll labels address instruction slots operands)
      (fillAll otherLabels address (instruction.recast variation.rename line)
        slots (operands.map (Operand.rename variation.rename))) := by
  induction slots generalizing instruction operands with
  | nil => exact .ok rfl
  | cons slot slots inductionHypothesis =>
      cases operands with
      | nil => exact .ok rfl
      | cons operand operands =>
          have first := fill_alike tables address line instruction slot operand
          rw [List.map_cons, fillAll, fillAll]
          rcases first.error_or_ok with
            ⟨_, _, fails, failsToo, alike⟩ | ⟨filled, _, fills, fillsToo, rfl⟩
          · simp only [fails, failsToo]
            exact .error alike
          · simp only [fills, fillsToo]
            exact inductionHypothesis filled operands

theorem ofOperands_alike (tables : labels.Corresponds variation otherLabels)
    (address line otherLine : Nat) (opcode : Opcode)
    (related : List.Forall₂ (Token.Corresponds variation) tokens others) :
    AlikeOutcomes (ParseFault.Corresponds variation)
      (fun instruction other =>
        other = instruction.recast variation.rename otherLine)
      (ofOperands labels address opcode line tokens)
      (ofOperands otherLabels address opcode otherLine others) := by
  have groups : Operand.ofTokens? others =
      (Operand.ofTokens? tokens).map
        (List.map (Operand.rename variation.rename)) := by
    unfold Operand.ofTokens?
    rw [Token.kinds_eq_of_forall₂ related, Operand.ofKinds?_rename]
  unfold ofOperands
  rw [groups]
  cases Operand.ofTokens? tokens with
  | none =>
      refine .error (.operandMismatch _ _ (variation.quote_intercalate " " ?_))
      rw [List.forall₂_map_left_iff, List.forall₂_map_right_iff]
      exact related.imp fun _ _ corresponds => corresponds.text
  | some operands =>
      simp only [Option.map_some, OperandSlot.acceptAll_rename]
      split
      · have blank : { bare opcode otherLine with
              label? := otherLabels.nameAt? address } =
            Instruction.recast variation.rename otherLine
              { bare opcode line with label? := labels.nameAt? address } := by
          rw [tables.nameAt?_eq]
          rfl
        rw [blank]
        exact fillAll_alike tables address otherLine _ _ operands
      · refine .error (.operandMismatch _ _
          (variation.quote_intercalate ", " ?_))
        rw [List.map_map, List.forall₂_map_left_iff,
          List.forall₂_map_right_iff]
        exact List.forall₂_same.mpr fun operand _ =>
          variation.quote_operand operand

/-- Statements with related operands and labels denote related instructions,
or are refused for related faults. -/
theorem decode_alike (tables : labels.Corresponds variation otherLabels)
    (address : Nat) (mnemonic : String)
    (lines : variation.line line otherLine)
    (related : List.Forall₂ (Token.Corresponds variation) tokens others) :
    AlikeOutcomes (ParseError.Corresponds variation)
      (Instruction.Corresponds variation)
      (decode labels address mnemonic line tokens)
      (decode otherLabels address mnemonic otherLine others) := by
  cases known : Opcode.ofMnemonic? mnemonic.toList with
  | none =>
      simp only [decode, known]
      exact .error ⟨lines, .unknownMnemonic mnemonic⟩
  | some opcode =>
      rcases (ofOperands_alike tables address line otherLine opcode
        related).error_or_ok with
        ⟨_, _, fails, failsToo, alike⟩ |
        ⟨instruction, _, denotes, denotesToo, rfl⟩
      · simp only [decode, known, fails, failsToo]
        exact .error ⟨lines, alike⟩
      · have decoded : decode labels address mnemonic line tokens =
            .ok instruction := by
          simp only [decode, known, denotes]
        have onLine := (decode_eq_ok_iff.mp decoded).line
        rw [decoded]
        simp only [decode, known, denotesToo]
        exact .ok ⟨rfl, onLine ▸ lines⟩

end Instruction

/-! ## Places -/

open Token

/-- Whether an operand token is stray depends on whether it stands on the line
of the mnemonic before it. -/
theorem Token.isStray_iff
    (relatedBefore :
      List.Forall₂ (Token.Corresponds variation) before otherBefore)
    (corresponds : token.Corresponds variation other)
    (sameLine : token.startsStatement = false →
      ∀ start ∈ lastStart? before, ∀ otherStart ∈ lastStart? otherBefore,
        start.isMnemonic = true →
          (start.line = token.line ↔ otherStart.line = other.line)) :
    IsStray before token ↔ IsStray otherBefore other := by
  unfold IsStray
  rw [← corresponds.startsStatement_eq]
  refine and_congr_right fun operand => ?_
  have starts := rel_lastStart? relatedBefore
  revert starts sameLine
  generalize lastStart? before = last
  generalize lastStart? otherBefore = otherLast
  intro sameLine starts
  cases starts with
  | none => simp
  | @some start otherStart correspondsStart =>
      have lines := sameLine operand start rfl otherStart rfl
      simp only [Option.mem_some_iff, forall_eq',
        ← correspondsStart.isMnemonic_eq]
      by_cases isMnemonic : start.isMnemonic = true
      · exact or_congr_right (not_congr (lines isMnemonic))
      · simp [isMnemonic]

theorem Token.sameLabel_iff {earlier otherEarlier : Token}
    (corresponds : token.Corresponds variation other)
    (correspondsEarlier : earlier.Corresponds variation otherEarlier) :
    token.SameLabel earlier ↔ other.SameLabel otherEarlier := by
  unfold SameLabel
  rw [corresponds.kind, correspondsEarlier.kind]
  cases token.kind <;> cases earlier.kind <;>
    simp [TokenKind.rename, variation.injective.eq_iff]

theorem Token.samePlaces_redeclares (tokens others : List Token) :
    SamePlaces (Token.Corresponds variation) Redeclares Redeclares tokens
      others := by
  intro before token otherBefore other _ _ related corresponds
  exact exists_mem_iff_of_forall₂ related
    fun _ _ correspondsEarlier => sameLabel_iff corresponds correspondsEarlier

theorem Token.exists_decodes (cut : before ++ [token] <+: tokens)
    (isMnemonic : token.isMnemonic = true) :
    ∃ outcome, Decodes tokens before token outcome := by
  obtain ⟨after, rfl⟩ := cut
  unfold Token.isMnemonic at isMnemonic
  split at isMnemonic
  next name names =>
    exact ⟨_, name, after, names, by simp, rfl⟩
  next => contradiction

/-- At related places, mnemonics denote related instructions or are refused
for related faults. -/
theorem Token.Decodes.alike {outcome : Except ParseError Instruction}
    (decodes : Decodes tokens before token outcome)
    (related : List.Forall₂ (Token.Corresponds variation) tokens others)
    (otherCut : otherBefore ++ [other] <+: others)
    (relatedBefore :
      List.Forall₂ (Token.Corresponds variation) before otherBefore) :
    ∃ otherOutcome, Decodes others otherBefore other otherOutcome ∧
      AlikeOutcomes (ParseError.Corresponds variation)
        (Instruction.Corresponds variation) outcome otherOutcome := by
  obtain ⟨name, after, names, rfl, rfl⟩ := decodes
  obtain ⟨otherAfter, rfl⟩ := otherCut
  rw [List.append_assoc, List.singleton_append] at related ⊢
  obtain ⟨left, middle, right, whole, relatedLeft, corresponds,
    relatedAfter⟩ := forall₂_append_cons related
  have sameLength := relatedBefore.length_eq.trans relatedLeft.length_eq.symm
  obtain ⟨_, same⟩ := List.append_inj whole sameLength
  cases same
  have tables : LabelTable.Corresponds variation
      ⟨declarations 0 (before ++ token :: after)⟩
      ⟨declarations 0 (otherBefore ++ other :: otherAfter)⟩ :=
    forall₂_declarations related 0
  have stops : ∀ next otherNext : Token, next.Corresponds variation otherNext →
      (!next.startsStatement) = !otherNext.startsStatement := by
    intro next otherNext each
    rw [each.startsStatement_eq]
  have operands := forall₂_takeWhile relatedAfter stops
  refine ⟨_, ⟨name, otherAfter, ?_, rfl, rfl⟩, ?_⟩
  · rw [corresponds.kind, names]
    rfl
  · rw [mnemonicCount_eq_of_forall₂ relatedBefore]
    exact Instruction.decode_alike tables _ name corresponds.line operands

theorem Token.samePlaces_isRefused
    (related : List.Forall₂ (Token.Corresponds variation) tokens others) :
    SamePlaces (Token.Corresponds variation) (IsRefused tokens)
      (IsRefused others) tokens others := by
  intro before token otherBefore other cut otherCut relatedBefore corresponds
  constructor
  · rintro ⟨parseError, refused⟩
    obtain ⟨_, decodes, alike⟩ := refused.alike related otherCut relatedBefore
    cases alike with
    | error alike => exact ⟨_, decodes⟩
  · rintro ⟨parseError, refused⟩
    have isMnemonic := refused.isMnemonic
    rw [← corresponds.isMnemonic_eq] at isMnemonic
    obtain ⟨outcome, decodes⟩ := exists_decodes cut isMnemonic
    obtain ⟨otherOutcome, otherDecodes, alike⟩ :=
      decodes.alike related otherCut relatedBefore
    obtain rfl := refused.unique otherDecodes
    cases alike with
    | error alike => exact ⟨_, decodes⟩

/-! ## Programs -/

theorem Program.IsDenoted.corresponds {program otherProgram : Program}
    (denoted : program.IsDenoted tokens)
    (otherDenoted : otherProgram.IsDenoted others)
    (related : List.Forall₂ (Token.Corresponds variation) tokens others) :
    program.Corresponds variation otherProgram := by
  refine ⟨List.forall₂_iff_get.mpr ⟨?_, ?_⟩, ?_⟩
  · exact denoted.size.trans
      ((mnemonicCount_eq_of_forall₂ related).trans otherDenoted.size.symm)
  · intro index inside insideOther
    obtain ⟨before, token, after, rfl, isMnemonic, rfl⟩ :=
      exists_mnemonic (Nat.lt_of_lt_of_eq inside denoted.size)
    obtain ⟨instruction, found, decodes⟩ :=
      denoted.decodes before token after rfl isMnemonic
    have cut : before ++ [token] <+: before ++ token :: after := by simp
    obtain ⟨otherBefore, other, otherCut, relatedBefore, corresponds⟩ :=
      exists_place_of_forall₂ related cut
    obtain ⟨_, decodesToo, alike⟩ :=
      decodes.alike related otherCut relatedBefore
    obtain ⟨otherAfter, whole⟩ := otherCut
    rw [List.append_assoc, List.singleton_append] at whole
    rw [corresponds.isMnemonic_eq] at isMnemonic
    obtain ⟨otherInstruction, otherFound, otherDecodes⟩ :=
      otherDenoted.decodes otherBefore other otherAfter whole.symm isMnemonic
    obtain rfl := decodesToo.unique otherDecodes
    rw [← mnemonicCount_eq_of_forall₂ relatedBefore] at otherFound
    obtain ⟨_, rfl⟩ := Array.getElem?_eq_some_iff.mp found
    obtain ⟨_, rfl⟩ := Array.getElem?_eq_some_iff.mp otherFound
    cases alike with
    | ok alike => exact alike
  · rw [denoted.labels, otherDenoted.labels]
    exact forall₂_declarations related 0

/-- **Variation.**  Token lists that are related by a variation, with the same
stray tokens, are accepted as related programs or refused for related
faults. -/
theorem Program.ofTokens_alike
    (related : List.Forall₂ (Token.Corresponds variation) tokens others)
    (strays : SamePlaces (Token.Corresponds variation) IsStray IsStray tokens
      others) :
    AlikeOutcomes (ParseError.Corresponds variation)
      (Program.Corresponds variation) (ofTokens tokens) (ofTokens others) := by
  have verdict := verdict_ofTokens tokens
  have otherVerdict := verdict_ofTokens others
  generalize ofTokens tokens = result at verdict ⊢
  cases verdict with
  | stray first =>
      obtain ⟨_, _, otherFirst, _, corresponds⟩ :=
        strays.firstPlace related first
      rw [otherVerdict.unique (.stray otherFirst)]
      exact .error ⟨corresponds.line, .expectedMnemonic corresponds.text⟩
  | @redeclared before token earlier name grouped first declares among
      declared =>
      obtain ⟨otherBefore, other, otherFirst, relatedBefore, corresponds⟩ :=
        (samePlaces_redeclares tokens others).firstPlace related first
      obtain ⟨otherEarlier, otherAmong, correspondsEarlier⟩ :=
        exists_related_of_mem relatedBefore among
      have otherDeclares := corresponds.kind
      have otherDeclared := correspondsEarlier.kind
      rw [declares] at otherDeclares
      rw [declared] at otherDeclared
      rw [otherVerdict.unique (.redeclared (strays.nowhere related grouped)
        otherFirst otherDeclares otherAmong otherDeclared)]
      exact .error ⟨corresponds.line,
        .duplicateLabel name correspondsEarlier.line⟩
  | undecodable grouped distinct first refused =>
      have otherDistinct :=
        (samePlaces_redeclares tokens others).nowhere related distinct
      obtain ⟨otherBefore, other, otherFirst, relatedBefore, _⟩ :=
        (samePlaces_isRefused related).firstPlace related first
      obtain ⟨otherOutcome, decodes, alike⟩ :=
        refused.alike related otherFirst.cut relatedBefore
      cases alike with
      | error alike =>
          rw [otherVerdict.unique (.undecodable
            (strays.nowhere related grouped) otherDistinct otherFirst decodes)]
          exact .error alike
  | program grouped distinct denoted =>
      have otherGrouped := strays.nowhere related grouped
      have otherDistinct :=
        (samePlaces_redeclares tokens others).nowhere related distinct
      have otherDecodes := (samePlaces_isRefused related).nowhere related
        denoted.nowhere_isRefused
      generalize ofTokens others = otherResult at otherVerdict ⊢
      cases otherVerdict with
      | stray first => exact absurd otherGrouped first.not_nowhere
      | redeclared _ first => exact absurd otherDistinct first.not_nowhere
      | undecodable _ _ first => exact absurd otherDecodes first.not_nowhere
      | program _ _ otherDenoted =>
          exact .ok (denoted.corresponds otherDenoted related)

end MiniMips
