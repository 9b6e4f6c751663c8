import MiniMips.Proofs.Assembly.Lines
import MiniMips.Proofs.Assembly.Renaming
import MiniMips.Proofs.Assembly.Resolution
import MiniMips.Proofs.Assembly.Spelling

/-!
Contract: texts that differ in the case of letters.

Owns:
- texts whose mnemonics, registers and integer literals are spelled with letters
  of either case, and that are the same otherwise;
- that such texts have tokens of the same kinds, and are the same program;
- that the names of labels are told apart by the case of their letters.
-/

namespace MiniMips

/-- Whether the case of letters does not matter in tokens of a kind. -/
def TokenKind.isCaseless : TokenKind → Bool
  | .mnemonic _ | .register _ | .immediate _ => true
  | _ => false

/-- A text that can stand for that of a token.  Where the case of letters
matters, it is the same text. -/
def Token.SpelledAs (token : Token) (text : List Char) : Prop :=
  SameLetters token.text.toList text ∧
    (token.kind.isCaseless = false → text = token.text.toList)
deriving Decidable

/-- A line with its tokens spelled in another way, and the same separators and
comment. -/
inductive Recased : List Token → List Char → List Char → Prop where
  | rest (behind : List Char) : Recased [] behind behind
  | separator {character : Char} {tokens : List Token}
      {line other : List Char} (separates : isSeparator character = true)
      (others : Recased tokens line other) :
      Recased tokens (character :: line) (character :: other)
  | token {token : Token} {text : List Char} {tokens : List Token}
      {line other : List Char} (spelled : token.SpelledAs text)
      (others : Recased tokens line other) :
      Recased (token :: tokens) (token.text.toList ++ line) (text ++ other)

/-- A text whose tokens are spelled in another way in the same places. -/
structure RecasedText (tokens : List Token) (text other : List Char) :
    Prop where
  sameLength : (linesOfText other).length = (linesOfText text).length
  lines : ∀ place line otherLine,
    (linesOfText text)[place]? = some line →
    (linesOfText other)[place]? = some otherLine →
    Recased (Token.onLine (1 + place) tokens) line otherLine

variable {line : Nat} {mnemonicSeen : Bool} {lexeme : Lexeme}
  {lexemes : List Lexeme} {kind : TokenKind}
  {tokens : List Token} {text other : List Char} {character : Char}

/-! ## One token -/

namespace Lexeme

/-- What does not continue a lexeme does not in another case. -/
theorem apart_of_sameLetters (same : SameLetters text other)
    (apart : ∀ first ∈ text.head?, lexeme.continues first = false) :
    ∀ first ∈ other.head?, lexeme.continues first = false := by
  intro first member
  obtain ⟨rest, rfl⟩ := List.head?_eq_some_iff.mp member
  obtain ⟨character, _, rfl, head, _⟩ := same.symm.exists_cons
  rw [← continues_toLower, ← head, continues_toLower]
  exact apart character rfl

/-- Another spelling of a lexeme is a lexeme that stands for the same. -/
theorem Means.exists_respelled (means : Means mnemonicSeen lexeme kind)
    (proper : lexeme.isProper = true) (same : SameLetters lexeme.text text)
    (kept : kind.isCaseless = false → text = lexeme.text) :
    ∃ other : Lexeme, other.text = text ∧ other.isProper = true ∧
      other.isWord = lexeme.isWord ∧ other.continues = lexeme.continues ∧
      Means mnemonicSeen other kind := by
  cases means with
  | openParenthesis =>
      exact ⟨_, (kept rfl).symm, proper, rfl, rfl, .openParenthesis⟩
  | closeParenthesis =>
      exact ⟨_, (kept rfl).symm, proper, rfl, rfl, .closeParenthesis⟩
  | label name => exact ⟨_, (kept rfl).symm, proper, rfl, rfl, .label name⟩
  | symbol name later =>
      exact ⟨_, (kept rfl).symm, proper, rfl, rfl, .symbol name later⟩
  | @register name _ names =>
      obtain ⟨otherName, rfl, sameName⟩ := same.exists_cons_mark (by decide)
      refine ⟨.register otherName, rfl, ?_, rfl, rfl, .register ?_⟩
      · have sameClass : otherName.all isNameCharacter =
            name.all isNameCharacter :=
          @SameLetters.congr _ _ _ (fun name => name.all isNameCharacter)
            (all_map_toLower isNameCharacter_toLower) sameName
        exact sameClass.trans proper
      · exact (sameName.congr Register.ofName?_map_toLower).trans names
  | integer denotes =>
      refine ⟨.integer text, rfl, ?_, rfl, rfl, .integer ?_⟩
      · exact (same.congr isLiteral_map_toLower).trans proper
      · exact (same.congr IntegerLiteral.read_map_toLower).trans denotes
  | mnemonic name first =>
      refine ⟨.word text, rfl, ?_, rfl, rfl, ?_⟩
      · exact (same.congr isName_map_toLower).trans proper
      · have sameName : name.map Char.toLower = text.map Char.toLower :=
          same.symm
        rw [sameName]
        exact .mnemonic text first

end Lexeme

/-! ## Lines -/

theorem Recased.sameLetters (recased : Recased tokens text other) :
    SameLetters text other := by
  induction recased with
  | rest behind => exact .refl behind
  | separator _ _ inductionHypothesis =>
      exact sameLetters_cons_iff.mpr ⟨rfl, inductionHypothesis⟩
  | token spelled _ inductionHypothesis =>
      exact spelled.1.append inductionHypothesis

/-- A line that is spelled in another way has lexemes that stand for tokens of
the same kinds. -/
theorem Recased.exists_standFor (recased : Recased tokens text other)
    (written : Lexeme.Written (codeOfLine text) lexemes)
    (standFor : Lexeme.StandFor line mnemonicSeen lexemes tokens) :
    ∃ otherLexemes others, Lexeme.Written (codeOfLine other) otherLexemes ∧
      Lexeme.StandFor line mnemonicSeen otherLexemes others ∧
      List.Forall₂ (Token.RenamedTo id) tokens others := by
  induction recased generalizing mnemonicSeen lexemes with
  | rest behind =>
      cases standFor with
      | nil => exact ⟨[], [], written, .nil, .nil⟩
  | @separator character tokens text other separates recased
      inductionHypothesis =>
      have uncommented : '#' ∉ [character] := by
        rw [List.mem_singleton]
        rintro rfl
        contradiction
      have code : ∀ rest, codeOfLine (character :: rest) =
          character :: codeOfLine rest := codeOfLine_append uncommented
      rw [code] at written
      obtain ⟨otherLexemes, others, otherWritten, otherStandFor, alike⟩ :=
        inductionHypothesis (written.of_separator separates) standFor
      refine ⟨otherLexemes, others, ?_, otherStandFor, alike⟩
      rw [code]
      exact .separator separates otherWritten
  | @token token respelled tokens text other spelled recased
      inductionHypothesis =>
      cases standFor with
      | @cons _ lexeme kind lexemes _ tokenKind standFor =>
          have means := Lexeme.tokenKind_eq_ok_iff.mp tokenKind
          have proper := written.isProper lexeme List.mem_cons_self
          obtain ⟨same, kept⟩ := spelled
          rw [String.toList_ofList] at same kept written
          obtain ⟨otherLexeme, rfl, otherProper, sameWord, sameContinues,
            otherMeans⟩ := means.exists_respelled proper same kept
          have uncommented : ∀ {lexeme : Lexeme},
              lexeme.Means mnemonicSeen kind → lexeme.isProper = true →
              '#' ∉ lexeme.text := by
            intro lexeme means proper member
            exact (means.legible proper '#' member).2.1 rfl
          rw [codeOfLine_append (uncommented means proper)] at written
          obtain ⟨apart, written⟩ := written.of_lexeme
          obtain ⟨otherLexemes, others, otherWritten, otherStandFor, alike⟩ :=
            inductionHypothesis written standFor
          refine ⟨otherLexeme :: otherLexemes, _, ?_,
            .cons (Lexeme.tokenKind_eq_ok_iff.mpr otherMeans)
              (by rw [sameWord]; exact otherStandFor),
            .cons ⟨?_, rfl⟩ alike⟩
          · rw [codeOfLine_append (uncommented otherMeans otherProper)]
            refine .lexeme otherProper ?_ otherWritten
            -- What follows may be another letter, but of the same classes.
            rw [sameContinues]
            exact Lexeme.apart_of_sameLetters
              recased.sameLetters.codeOfLine apart
          · cases kind <;> rfl

theorem Recased.exists_tokensOfLine (recased : Recased tokens text other)
    (reads : tokensOfLine line text = .ok tokens) :
    ∃ others, tokensOfLine line other = .ok others ∧
      List.Forall₂ (Token.RenamedTo id) tokens others := by
  obtain ⟨lexemes, written, standFor⟩ := tokensOfLine_eq_ok_iff.mp reads
  obtain ⟨otherLexemes, others, otherWritten, otherStandFor, alike⟩ :=
    recased.exists_standFor written standFor
  exact ⟨others, tokensOfLine_eq_ok_iff.mpr
    ⟨otherLexemes, otherWritten, otherStandFor⟩, alike⟩

/-! ## Texts -/

/-- Lines that are spelled in another way, one by one, have tokens of the same
kinds together. -/
theorem exists_tokensOfLines_of_recased {first : Nat}
    {texts others : List (List Char)}
    (sameLength : others.length = texts.length)
    (recased : ∀ place text other, texts[place]? = some text →
      others[place]? = some other →
      Recased (Token.onLine (first + place) tokens) text other)
    (reads : tokensOfLines first texts = .ok tokens) :
    ∃ otherTokens, tokensOfLines first others = .ok otherTokens ∧
      List.Forall₂ (Token.RenamedTo id) tokens otherTokens := by
  induction texts generalizing first tokens others with
  | nil =>
      cases List.length_eq_zero_iff.mp sameLength
      cases reads
      exact ⟨[], rfl, .nil⟩
  | cons text texts inductionHypothesis =>
      obtain ⟨other, others, rfl⟩ := List.exists_cons_of_length_eq_add_one
        sameLength
      obtain ⟨part, more, rfl, readsFirst, readsOthers⟩ :=
        tokensOfLines_cons_eq_ok_iff.mp reads
      have same := line_eq_of_tokensOfLine readsFirst
      have inLines := (tokensOfLines_eq_ok_iff_onLine.mp readsOthers).1
      have recasedFirst := recased 0 text other rfl rfl
      rw [Nat.add_zero, inLines.onLine_first same] at recasedFirst
      obtain ⟨otherPart, otherReads, alike⟩ :=
        recasedFirst.exists_tokensOfLine readsFirst
      obtain ⟨otherMore, otherReadsMore, alikeMore⟩ :=
        @inductionHypothesis more (first + 1) others
          (Nat.succ.inj sameLength)
          (fun place text other present otherPresent => by
            rw [← Token.onLine_further same]
            exact recased (place + 1) text other present otherPresent)
          readsOthers
      exact ⟨otherPart ++ otherMore,
        tokensOfLines_cons_eq_ok_iff.mpr
          ⟨_, _, rfl, otherReads, otherReadsMore⟩,
        List.rel_append alike alikeMore⟩

theorem exists_lex_of_recased {source respelled : String}
    (reads : lex source = .ok tokens)
    (recased : RecasedText tokens source.toList respelled.toList) :
    ∃ others, lex respelled = .ok others ∧
      List.Forall₂ (Token.RenamedTo id) tokens others :=
  exists_tokensOfLines_of_recased recased.sameLength recased.lines reads

theorem Program.ofTokens_of_recased {others : List Token} {program : Program}
    (alike : List.Forall₂ (Token.RenamedTo id) tokens others)
    (accepts : ofTokens tokens = .ok program) :
    ofTokens others = .ok program := by
  rcases (ofTokens_alike_of_renamed Function.injective_id
      alike).error_or_ok with
    ⟨_, _, fails, _, _⟩ | ⟨_, _, accepted, acceptedToo, corresponds⟩
  · rw [accepts] at fails
    contradiction
  · cases accepts.symm.trans accepted
    rw [acceptedToo, corresponds.eq_rename, rename_id]

/-! ## Names of labels -/

namespace Instruction

variable {labels : LabelTable} {address : Nat} {instruction : Instruction}
  {name : String} {firstLine : Nat}

theorem fill_ne_duplicateLabel (slot : OperandSlot) (operand : Operand) :
    instruction.fill labels address slot operand ≠
      .error (.duplicateLabel name firstLine) := by
  fun_cases fill labels address instruction slot operand <;>
    simp_all [mismatch]

theorem fillAll_ne_duplicateLabel (slots : List OperandSlot)
    (operands : List Operand) :
    fillAll labels address instruction slots operands ≠
      .error (.duplicateLabel name firstLine) := by
  fun_induction fillAll labels address instruction slots operands with
  | case1 instruction slot slots operand operands fault fails =>
      intro same
      cases same
      exact fill_ne_duplicateLabel slot operand fails
  | case2 _ _ _ _ _ _ _ inductionHypothesis => exact inductionHypothesis
  | case3 => simp

/-- No instruction is refused for a label that is declared again. -/
theorem decode_ne_duplicateLabel (mnemonic : String) (line : Nat)
    (operands : List Token) {refusedOn : Nat} :
    decode labels address mnemonic line operands ≠
      .error ⟨refusedOn, .duplicateLabel name firstLine⟩ := by
  unfold decode
  cases Opcode.ofMnemonic? mnemonic.toList with
  | none => simp
  | some opcode =>
      dsimp only
      have operandsFine : ofOperands labels address opcode line operands ≠
          .error (.duplicateLabel name firstLine) := by
        unfold ofOperands
        split
        next => simp [mismatch]
        next grouped =>
          split
          next => exact fillAll_ne_duplicateLabel _ _
          next => simp [mismatch]
      cases decoded : ofOperands labels address opcode line operands with
      | error fault =>
          rw [decoded] at operandsFine
          simpa using fun _ => operandsFine
      | ok instruction => simp

end Instruction

namespace Program

variable {program : Program} {name : String}

/-- A label that is declared again has a declaration of exactly its name before
it. -/
theorem exists_earlier_of_duplicateLabel {firstLine : Nat}
    (fails : ofTokens tokens =
      .error ⟨line, .duplicateLabel name firstLine⟩) :
    ∃ before token after, tokens = before ++ token :: after ∧
      token.kind = .label name ∧
      ∃ earlier ∈ before, earlier.kind = .label name := by
  have verdict := verdict_ofTokens tokens
  rw [fails] at verdict
  cases verdict with
  | redeclared _ first declares among declared =>
      obtain ⟨after, whole⟩ := first.cut
      rw [List.append_assoc, List.singleton_append] at whole
      exact ⟨_, _, after, whole.symm, declares, _, among, declared⟩
  | undecodable _ _ _ refused =>
      obtain ⟨mnemonic, after, _, _, decodes⟩ := refused
      exact absurd decodes (Instruction.decode_ne_duplicateLabel _ _ _)

/-- A label that an operand refers to is declared under exactly its name. -/
theorem exists_label_of_symbol (accepts : ofTokens tokens = .ok program)
    {symbol : Token} (member : symbol ∈ tokens)
    (refers : symbol.kind = .symbol name) :
    ∃ label ∈ tokens, label.kind = .label name := by
  obtain ⟨before, after, rfl⟩ := List.append_of_mem member
  obtain ⟨index, instruction, _, _, ⟨slot, _, holds⟩, _⟩ :=
    exists_holds_of_symbol accepts refers
  have resolved : ∃ destination,
      program.labels.resolve? name = some destination := by
    cases holds with
    | branchLabel resolved _ => exact ⟨_, resolved⟩
    | jumpLabel resolved _ => exact ⟨_, resolved⟩
  obtain ⟨destination, resolved⟩ := resolved
  obtain ⟨_, _, label, _, whole, declares, _⟩ :=
    (resolve?_eq_some_iff accepts).mp resolved
  exact ⟨label, by simp [whole], declares⟩

end Program

/-- **Letter case.**  A source that assembles may have mnemonics, registers and
integer literals with letters of either case, and is the same program then.
Labels are told apart by the case of their letters: a token has the name of its
label as it is written, a name is resolved to the declarations of exactly this
name, an operand refers to a declaration of exactly its name, and no label is
refused as declared again unless it was declared under exactly its name. -/
theorem letter_case :
    (∀ (source respelled : String) (assembled : Assembled),
      assemble source = .ok assembled →
      RecasedText assembled.tokens source.toList respelled.toList →
      ∃ tokens, assemble respelled = .ok ⟨tokens, assembled.program⟩) ∧
    (∀ (source : String) (assembled : Assembled),
      assemble source = .ok assembled →
      (∀ token ∈ assembled.tokens, ∀ name,
        (token.kind = .label name → token.text = name ++ ":") ∧
        (token.kind = .symbol name → token.text = name ∧
          ∃ label ∈ assembled.tokens, label.kind = .label name)) ∧
      ∀ name index, assembled.program.labels.resolve? name = some index ↔
        ∃ before token after, assembled.tokens = before ++ token :: after ∧
          token.kind = .label name ∧ Token.mnemonicCount before = index) ∧
    ∀ (tokens : List Token) (line : Nat) (name : String) (firstLine : Nat),
      Program.ofTokens tokens =
        .error ⟨line, .duplicateLabel name firstLine⟩ →
      ∃ before token after, tokens = before ++ token :: after ∧
        token.kind = .label name ∧
        ∃ earlier ∈ before, earlier.kind = .label name := by
  refine ⟨?_, ?_, ?_⟩
  · intro source respelled assembled assembles recased
    obtain ⟨reads, accepts⟩ := assemble_eq_ok_iff.mp assembles
    obtain ⟨tokens, readsToo, alike⟩ := exists_lex_of_recased reads recased
    exact ⟨tokens, assemble_eq_ok_iff.mpr
      ⟨readsToo, Program.ofTokens_of_recased alike accepts⟩⟩
  · intro source assembled assembles
    obtain ⟨reads, accepts⟩ := assemble_eq_ok_iff.mp assembles
    refine ⟨?_, ?_⟩
    · intro token member name
      obtain ⟨lexeme, proper, spelled, _, means⟩ :=
        exists_lexeme_of_lex reads member
      have spells := means.spells proper
      rw [← spelled] at spells
      constructor
      · intro declares
        rw [declares] at spells
        exact spells.2
      · intro refers
        rw [refers] at spells
        exact ⟨spells.2, Program.exists_label_of_symbol accepts member refers⟩
    · intro name index
      rw [Program.resolve?_eq_some_iff accepts]
      constructor
      · rintro ⟨_, before, token, after, whole, declares, counted, _⟩
        exact ⟨before, token, after, whole, declares, counted⟩
      · rintro ⟨before, token, after, whole, declares, counted⟩
        exact ⟨_, before, token, after, whole, declares, counted, rfl⟩
  · intro tokens line name firstLine fails
    exact Program.exists_earlier_of_duplicateLabel fails

/-- Two labels that differ in the case of a letter only, around an instruction
whose mnemonic, register and literal have other letters. -/
theorem letter_case_labels :
    let source := "A: li $SP,0XfF a:"
    let respelled := "A: LI $sp,0xFF a:"
    ∃ program tokens others, assemble source = .ok ⟨tokens, program⟩ ∧
      assemble respelled = .ok ⟨others, program⟩ ∧
      program.labels.resolve? "A" = some 0 ∧
      program.labels.resolve? "a" = some 1 := by
  intro source respelled
  let first : List Token :=
    [⟨.label "A", "A:", 1⟩, ⟨.mnemonic "li", "li", 1⟩,
      ⟨.register 29, "$SP", 1⟩, ⟨.immediate 255, "0XfF", 1⟩]
  let last : Token := ⟨.label "a", "a:", 1⟩
  have tokensRead : (assemble source).toOption.map Assembled.tokens =
      some (first ++ [last]) := by
    decide +kernel
  cases assembles : assemble source with
  | error assemblyError =>
      rw [assembles] at tokensRead
      contradiction
  | ok assembled =>
      rw [assembles] at tokensRead
      have tokens : assembled.tokens = first ++ [last] :=
        Option.some.inj tokensRead
      have recased : RecasedText assembled.tokens source.toList
          respelled.toList := by
        rw [tokens]
        refine ⟨by decide, fun place line other present presentToo => ?_⟩
        rw [linesOfText_of_not_mem (by decide)] at present presentToo
        match place with
        | 0 =>
            cases present
            cases presentToo
            show Recased _ "A: li $SP,0XfF a:".toList
              "A: LI $sp,0xFF a:".toList
            refine @Recased.token ⟨.label "A", "A:", 1⟩ ['A', ':'] _ _ _
              (by decide) (.separator rfl ?_)
            refine @Recased.token ⟨.mnemonic "li", "li", 1⟩ ['L', 'I'] _ _ _
              (by decide) (.separator rfl ?_)
            refine @Recased.token ⟨.register 29, "$SP", 1⟩ ['$', 's', 'p']
              _ _ _ (by decide) (.separator rfl ?_)
            refine @Recased.token ⟨.immediate 255, "0XfF", 1⟩
              ['0', 'x', 'F', 'F'] _ _ _ (by decide) (.separator rfl ?_)
            exact @Recased.token ⟨.label "a", "a:", 1⟩ ['a', ':'] _ _ _
              (by decide) (.rest [])
        | place + 1 => contradiction
      obtain ⟨respells, labels, _⟩ := letter_case
      obtain ⟨others, assemblesToo⟩ :=
        respells source respelled assembled assembles recased
      obtain ⟨_, resolves⟩ := labels source assembled assembles
      exact ⟨assembled.program, assembled.tokens, others, rfl, assemblesToo,
        (resolves _ _).mpr ⟨[], _, _, tokens, rfl, rfl⟩,
        (resolves _ _).mpr ⟨first, last, [], tokens, rfl, rfl⟩⟩

end MiniMips
