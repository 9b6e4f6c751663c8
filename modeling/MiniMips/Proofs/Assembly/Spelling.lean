import MiniMips.Proofs.Assembly.Statements
import MiniMips.Proofs.Assembly.TokensOnLine
import MiniMips.Proofs.LetterCase

/-!
Contract: how the tokens of a text are spelled.

Owns:
- what tokens spell together, and that those of a line spell all of its code
  but the separators;
- what the kind of a token says about its text;
- tokens that are spelled as a name and nothing else: the first of them on a
  line is its mnemonic, and the others are symbols.
-/

namespace MiniMips

/-- What there is to read on a line: its code without the separators. -/
def legibleText (line : List Char) : List Char :=
  (codeOfLine line).filter (fun character => !isSeparator character)

/-- A text of which a token of some kind can have been read. -/
def TokenKind.Spells (text : String) : TokenKind → Prop
  | .label name => isName name.toList = true ∧ text = name ++ ":"
  | .mnemonic name =>
      isName name.toList = true ∧
        name = String.ofList (text.toList.map Char.toLower)
  | .symbol name => isName name.toList = true ∧ text = name
  | .register index =>
      index < 32 ∧ ∃ name, text = String.ofList ('$' :: name) ∧
        (Register.ofName? name).map Fin.val = some index.toNat
  | .immediate value => IntegerLiteral.read text.toList = .ok value
  | .openParenthesis => text = "("
  | .closeParenthesis => text = ")"

namespace Token

def isSymbol (token : Token) : Bool :=
  match token.kind with
  | .symbol _ => true
  | _ => false

/-- Whether a token is spelled as a name and nothing else. -/
def isBareName (token : Token) : Bool :=
  isName token.text.toList

/-- What tokens spell, one after the other. -/
def spelling (tokens : List Token) : List Char :=
  tokens.flatMap (fun token => token.text.toList)

end Token

variable {line : Nat} {mnemonicSeen : Bool} {lexeme : Lexeme}
  {lexemes : List Lexeme} {kind : TokenKind} {token : Token}
  {tokens before after : List Token}

/-! ## One token -/

namespace Lexeme

/-- The bare names are the lexemes that are spelled as a name. -/
theorem isName_text (proper : lexeme.isProper = true) :
    isName lexeme.text = lexeme.isWord := by
  cases lexeme with
  | openParenthesis | closeParenthesis => decide
  | register name =>
      have mark : isNameStart '$' = false := by decide
      simp [text, isName, isWord, mark]
  | integer text =>
      cases text with
      | nil => contradiction
      | cons first more =>
          have starts : isLiteralStart first = true :=
            (Bool.and_eq_true_iff.mp proper).1
          have noName : isNameStart first = false := by
            refine Bool.eq_false_iff.mpr fun named => ?_
            rw [isLiteralStart_of_isNameStart named] at starts
            contradiction
          simp [Lexeme.text, isName, isWord, noName]
  | label name =>
      cases name with
      | nil => contradiction
      | cons first more =>
          have colon : isNameCharacter ':' = false := by decide
          simp [text, isName, isWord, colon]
  | word name => exact proper
  | stray character =>
      simp only [isProper, Bool.not_eq_true', Bool.or_eq_false_iff] at proper
      simp [text, isName, isWord, proper.2]

theorem Means.spells (means : Means mnemonicSeen lexeme kind)
    (proper : lexeme.isProper = true) :
    kind.Spells (String.ofList lexeme.text) := by
  cases means with
  | openParenthesis | closeParenthesis => rfl
  | @register name found names =>
      have inside : found.val < UInt8.size :=
        Nat.lt_trans found.isLt (by decide)
      have means := @Means.register mnemonicSeen name found names
      refine ⟨register_lt (tokenKind_eq_ok_iff.mpr means), name, rfl, ?_⟩
      rw [names, UInt8.toNat_ofNat_of_lt' inside]
      rfl
  | integer denotes =>
      rw [TokenKind.Spells, String.toList_ofList]
      exact denotes
  | label name =>
      rw [TokenKind.Spells, String.toList_ofList]
      exact ⟨proper, String.ofList_append⟩
  | mnemonic name first =>
      rw [TokenKind.Spells, String.toList_ofList, String.toList_ofList]
      exact ⟨(isName_map_toLower name).trans proper, rfl⟩
  | symbol name later =>
      rw [TokenKind.Spells, String.toList_ofList]
      exact ⟨proper, rfl⟩

/-- A bare name is a mnemonic if it is the first, and otherwise a symbol. -/
theorem Means.roles (means : Means mnemonicSeen lexeme kind) (text : String)
    (line : Nat) :
    Token.isMnemonic ⟨kind, text, line⟩ = (lexeme.isWord && !mnemonicSeen) ∧
      Token.isSymbol ⟨kind, text, line⟩ = (lexeme.isWord && mnemonicSeen) := by
  cases means with
  | mnemonic name first => simp [Token.isMnemonic, Token.isSymbol, isWord, first]
  | symbol name later => simp [Token.isMnemonic, Token.isSymbol, isWord, later]
  | _ => exact ⟨rfl, rfl⟩

/-! ## The tokens of a line -/

theorem StandFor.spelling_eq
    (standFor : StandFor line mnemonicSeen lexemes tokens) :
    Token.spelling tokens = lexemes.flatMap text := by
  rw [Token.spelling, List.flatMap_def, standFor.map_text, ← List.flatMap_def]

/-- There is a bare name among tokens exactly where there is a word among their
lexemes. -/
theorem StandFor.any_isBareName
    (standFor : StandFor line mnemonicSeen lexemes tokens)
    (proper : ∀ lexeme ∈ lexemes, lexeme.isProper = true) :
    tokens.any Token.isBareName = lexemes.any isWord := by
  induction standFor with
  | nil => rfl
  | cons means others inductionHypothesis =>
      obtain ⟨properFirst, properOthers⟩ := List.forall_mem_cons.mp proper
      rw [List.any_cons, List.any_cons, inductionHypothesis properOthers,
        Token.isBareName, String.toList_ofList, isName_text properFirst]

/-- No line has a second mnemonic, and a line that had one before has none. -/
theorem StandFor.mnemonicCount_le
    (standFor : StandFor line mnemonicSeen lexemes tokens) :
    Token.mnemonicCount tokens + (if mnemonicSeen then 1 else 0) ≤ 1 := by
  induction standFor with
  | nil => split <;> simp
  | @cons seen lexeme kind lexemes tokens means others inductionHypothesis =>
      obtain ⟨isMnemonic, _⟩ := (tokenKind_eq_ok_iff.mp means).roles
        (String.ofList lexeme.text) line
      rw [Token.mnemonicCount_cons, isMnemonic]
      cases seen with
      | true => simpa using inductionHypothesis
      | false =>
          cases word : lexeme.isWord with
          | true => simpa [word] using inductionHypothesis
          | false => simpa [word] using inductionHypothesis

/-- Where there is a bare name, there is a mnemonic. -/
theorem StandFor.exists_mnemonic
    (standFor : StandFor line false lexemes tokens)
    (named : lexemes.any isWord = true) :
    ∃ token ∈ tokens, token.isMnemonic = true := by
  generalize unseen : false = seen at standFor
  induction standFor with
  | nil => contradiction
  | @cons seen lexeme kind lexemes tokens means others inductionHypothesis =>
      subst unseen
      cases word : lexeme.isWord with
      | true =>
          obtain ⟨isMnemonic, _⟩ := (tokenKind_eq_ok_iff.mp means).roles
            (String.ofList lexeme.text) line
          refine ⟨_, List.mem_cons_self, isMnemonic.trans ?_⟩
          rw [word]
          rfl
      | false =>
          rw [List.any_cons, word, Bool.false_or] at named
          obtain ⟨token, member, isMnemonic⟩ :=
            inductionHypothesis named (by rw [word, Bool.false_or])
          exact ⟨token, List.mem_cons_of_mem _ member, isMnemonic⟩

/-- The first bare name among tokens is a mnemonic, and the others are symbols,
which therefore stand behind a mnemonic. -/
theorem StandFor.roles
    (standFor : StandFor line false lexemes (before ++ token :: after))
    (proper : ∀ lexeme ∈ lexemes, lexeme.isProper = true) :
    token.isMnemonic =
        (token.isBareName && !before.any Token.isBareName) ∧
      token.isSymbol =
        (token.isBareName && before.any Token.isBareName) ∧
      (before.any Token.isBareName = true →
        ∃ earlier ∈ before, earlier.isMnemonic = true) := by
  obtain ⟨earlier, lexeme, later, rfl, first, means, text, _⟩ :=
    standFor.exists_cut
  have properFirst : ∀ other ∈ earlier, other.isProper = true :=
    fun other member => proper other (List.mem_append_left _ member)
  have bareName : token.isBareName = lexeme.isWord := by
    rw [Token.isBareName, text, String.toList_ofList,
      isName_text (proper lexeme (by simp))]
  obtain ⟨isMnemonic, isSymbol⟩ :=
    (tokenKind_eq_ok_iff.mp means).roles token.text token.line
  rw [bareName, first.any_isBareName properFirst]
  exact ⟨isMnemonic, isSymbol, first.exists_mnemonic⟩

end Lexeme

/-- Tokens in their line: what stands before one spells the tokens before it,
what stands after it spells the others, and no colon follows a bare name. -/
theorem exists_place_of_tokensOfLine {text : List Char}
    (reads : tokensOfLine line text = .ok (before ++ token :: after)) :
    ∃ front back, codeOfLine text = front ++ (token.text.toList ++ back) ∧
      front.filter (fun character => !isSeparator character) =
        Token.spelling before ∧
      back.filter (fun character => !isSeparator character) =
        Token.spelling after ∧
      (token.isBareName = true → back.head? ≠ some ':') := by
  obtain ⟨lexemes, written, standFor⟩ := tokensOfLine_eq_ok_iff.mp reads
  obtain ⟨earlier, lexeme, later, rfl, first, _, spelled, _, rest⟩ :=
    standFor.exists_cut
  have proper := written.isProper lexeme (by simp)
  obtain ⟨front, back, cut, writtenFront, writtenBack, apart⟩ :=
    written.exists_cut
  refine ⟨front, back, ?_, ?_, ?_, ?_⟩
  · rw [spelled, String.toList_ofList]
    exact cut
  · rw [first.spelling_eq, writtenFront.flatMap_text]
  · rw [rest.spelling_eq, writtenBack.flatMap_text]
  · intro bareName colon
    rw [Token.isBareName, spelled, String.toList_ofList,
      Lexeme.isName_text proper] at bareName
    -- A word that a colon followed would have been read as a label.
    cases lexeme with
    | word name =>
        have stops := apart ':' colon
        simp [Lexeme.continues] at stops
    | _ => contradiction

/-! ## Texts -/

variable {source : String}

/-- The text of a token is that of a lexeme that stands for it. -/
theorem exists_lexeme_of_lex (reads : lex source = .ok tokens)
    (member : token ∈ tokens) :
    ∃ lexeme : Lexeme, lexeme.isProper = true ∧
      token.text = String.ofList lexeme.text ∧
      ∃ seen, lexeme.Means seen token.kind := by
  obtain ⟨lexemes, proper, standFor⟩ := exists_standFor_of_lex reads token.line
  obtain ⟨before, after, cut⟩ :=
    List.append_of_mem (Token.mem_onLine.mpr ⟨member, rfl⟩)
  rw [cut] at standFor
  obtain ⟨earlier, lexeme, later, rfl, _, means, spelled, _⟩ :=
    standFor.exists_cut
  exact ⟨lexeme, proper lexeme (by simp), spelled, _,
    Lexeme.tokenKind_eq_ok_iff.mp means⟩

/-- **Nothing lost, nothing invented.**  The tokens of a text stand in the order
of its lines.  Those of one line spell its code without the separators, and
none of them spells nothing. -/
theorem lex_spells_lines (source : String) (tokens : List Token)
    (reads : lex source = .ok tokens) :
    (∀ place line, (linesOfText source.toList)[place]? = some line →
      Token.spelling (Token.onLine (1 + place) tokens) = legibleText line) ∧
    (∀ token ∈ tokens, 1 ≤ token.line ∧
      token.line ≤ (linesOfText source.toList).length) ∧
    tokens.Pairwise (fun token next => token.line ≤ next.line) ∧
    ∀ token ∈ tokens, token.text ≠ "" := by
  obtain ⟨inLines, each⟩ := lex_eq_ok_iff_onLine.mp reads
  refine ⟨?_, ?_, inLines.ordered, ?_⟩
  · intro place line present
    obtain ⟨lexemes, written, standFor⟩ :=
      tokensOfLine_eq_ok_iff.mp (each place line present)
    rw [standFor.spelling_eq, written.flatMap_text]
    rfl
  · intro token member
    have bounds := inLines.within token member
    omega
  · intro token member
    obtain ⟨lexeme, proper, spelled, _⟩ := exists_lexeme_of_lex reads member
    rw [spelled]
    intro empty
    rw [← String.toList_inj, String.toList_ofList] at empty
    exact Lexeme.text_ne_nil proper empty

/-- Tokens that touch each other, on the second of three lines. -/
theorem lex_spells_lines_touching :
    ∃ tokens, lex "\n\tlw $t0,-4($sp) # load\n" = .ok tokens ∧
      Token.spelling (Token.onLine 2 tokens) = "lw$t0-4($sp)".toList ∧
      tokens.length = 6 := by
  have read : (lex "\n\tlw $t0,-4($sp) # load\n").toOption.map List.length =
      some 6 := by
    decide +kernel
  cases reads : lex "\n\tlw $t0,-4($sp) # load\n" with
  | error lexError =>
      rw [reads] at read
      contradiction
  | ok tokens =>
      rw [reads] at read
      obtain ⟨spells, _⟩ := lex_spells_lines _ tokens reads
      refine ⟨tokens, rfl, (spells 1 _ rfl).trans ?_, Option.some.inj read⟩
      decide +kernel

/-- No token holds a line break, a comment mark or a separator. -/
theorem Lexeme.Means.legible (means : Means mnemonicSeen lexeme kind)
    (proper : lexeme.isProper = true) :
    ∀ character ∈ lexeme.text, character ≠ '\n' ∧ character ≠ '#' ∧
      isSeparator character = false := by
  intro character member
  have known :=
    not_isForeign_of_mem_text proper (means.ne_stray character) member
  refine ⟨?_, ?_, not_isSeparator_of_mem_text proper member⟩
  · rintro rfl
    contradiction
  · rintro rfl
    contradiction

/-- **Shapes of tokens.**  The text of every token is one of its kind, and holds
neither a line break nor a comment mark nor a separator.  Of the tokens of a
line that are spelled as a name, the first is the mnemonic of the line and the
others are symbols.  So a line has one mnemonic at most, and every symbol stands
behind it.  A name that a colon follows directly is never such a token. -/
theorem lex_shapes_tokens (source : String) (tokens : List Token)
    (reads : lex source = .ok tokens) :
    (∀ token ∈ tokens, token.kind.Spells token.text ∧
      ∀ character ∈ token.text.toList, character ≠ '\n' ∧ character ≠ '#' ∧
        isSeparator character = false) ∧
    (∀ line, Token.mnemonicCount (Token.onLine line tokens) ≤ 1) ∧
    (∀ line before token after,
      Token.onLine line tokens = before ++ token :: after →
      (token.isMnemonic = true ↔ token.isBareName = true ∧
        ∀ earlier ∈ before, earlier.isBareName = false) ∧
      (token.isSymbol = true ↔ token.isBareName = true ∧
        ∃ earlier ∈ before, earlier.isBareName = true) ∧
      (token.isSymbol = true →
        ∃ earlier ∈ before, earlier.isMnemonic = true)) ∧
    ∀ place text before token after,
      (linesOfText source.toList)[place]? = some text →
      Token.onLine (1 + place) tokens = before ++ token :: after →
      ∃ front back, codeOfLine text = front ++ (token.text.toList ++ back) ∧
        front.filter (fun character => !isSeparator character) =
          Token.spelling before ∧
        back.filter (fun character => !isSeparator character) =
          Token.spelling after ∧
        (token.isBareName = true → back.head? ≠ some ':') := by
  refine ⟨?_, ?_, ?_, ?_⟩
  · intro token member
    obtain ⟨lexeme, proper, spelled, seen, means⟩ :=
      exists_lexeme_of_lex reads member
    rw [spelled, String.toList_ofList]
    exact ⟨means.spells proper, means.legible proper⟩
  · intro line
    obtain ⟨lexemes, _, standFor⟩ := exists_standFor_of_lex reads line
    exact standFor.mnemonicCount_le
  · intro line before token after cut
    obtain ⟨lexemes, proper, standFor⟩ := exists_standFor_of_lex reads line
    rw [cut] at standFor
    obtain ⟨isMnemonic, isSymbol, behind⟩ := standFor.roles proper
    rw [isMnemonic, isSymbol]
    refine ⟨by simp, by simp, ?_⟩
    intro later
    exact behind (Bool.and_eq_true_iff.mp later).2
  · intro place text before token after present cut
    have readsLine := (lex_eq_ok_iff_onLine.mp reads).2 place text present
    rw [cut] at readsLine
    exact exists_place_of_tokensOfLine readsLine

/-- Two labels, one of which is spelled as a mnemonic, before the mnemonic of
the line, and one after it. -/
theorem lex_shapes_tokens_labels :
    let symbol : Token := ⟨.symbol "Z", "Z", 1⟩
    let before : List Token :=
      [⟨.label "x", "x:", 1⟩, ⟨.label "j", "j:", 1⟩, ⟨.mnemonic "beq", "BEQ", 1⟩,
        ⟨.register 31, "$RA", 1⟩, ⟨.label "y", "y:", 1⟩]
    lex "x: j:BEQ $RA,y:Z #j" = .ok (before ++ [symbol]) ∧
      (∀ token ∈ before ++ [symbol], token.kind.Spells token.text) ∧
      ∃ earlier ∈ before, earlier.isMnemonic = true := by
  intro symbol before
  have reads : lex "x: j:BEQ $RA,y:Z #j" = .ok (before ++ [symbol]) := by
    decide +kernel
  obtain ⟨spelled, _, roles, _⟩ := lex_shapes_tokens _ _ reads
  obtain ⟨_, _, behind⟩ := roles 1 before symbol [] (by decide)
  exact ⟨reads, fun token member => (spelled token member).1, behind rfl⟩

end MiniMips
