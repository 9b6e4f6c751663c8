import MiniMips.Assembly.Lexing
import MiniMips.Proofs.Assembly.Lexemes

/-!
Contract: the tokens that lexemes, lines and texts stand for.

Owns:
- the kinds of token that lexemes stand for, the tokens of the lexemes of a
  line, and those of lines, as relations, and that reading computes them;
- the fault of a line, which is that of its first lexeme without a token;
- where the tokens of a text come from;
- what a lexeme guarantees of the value that its token carries.
-/

namespace MiniMips

namespace Lexeme

/-- A lexeme stands for a kind of token.  The flag says whether there was a bare
name before it on its line. -/
inductive Means (mnemonicSeen : Bool) : Lexeme → TokenKind → Prop where
  | openParenthesis : Means mnemonicSeen .openParenthesis .openParenthesis
  | closeParenthesis : Means mnemonicSeen .closeParenthesis .closeParenthesis
  | register {name : List Char} {found : Register}
      (names : Register.ofName? name = some found) :
      Means mnemonicSeen (.register name)
        (.register (UInt8.ofNat found.val))
  | integer {text : List Char} {value : Int32}
      (denotes : IntegerLiteral.read text = .ok value) :
      Means mnemonicSeen (.integer text) (.immediate value)
  | label (name : List Char) :
      Means mnemonicSeen (.label name) (.label (String.ofList name))
  | mnemonic (name : List Char) (first : mnemonicSeen = false) :
      Means mnemonicSeen (.word name)
        (.mnemonic (String.ofList (name.map Char.toLower)))
  | symbol (name : List Char) (later : mnemonicSeen = true) :
      Means mnemonicSeen (.word name) (.symbol (String.ofList name))

/-- Lexemes of a line stand for tokens.  The flag says whether there was a bare
name before them. -/
inductive StandFor (line : Nat) : Bool → List Lexeme → List Token → Prop where
  | nil {mnemonicSeen : Bool} : StandFor line mnemonicSeen [] []
  | cons {mnemonicSeen : Bool} {lexeme : Lexeme} {kind : TokenKind}
      {lexemes : List Lexeme} {tokens : List Token}
      (means : lexeme.tokenKind mnemonicSeen = .ok kind)
      (others : StandFor line (mnemonicSeen || lexeme.isWord) lexemes tokens) :
      StandFor line mnemonicSeen (lexeme :: lexemes)
        (⟨kind, String.ofList lexeme.text, line⟩ :: tokens)

variable {line : Nat} {mnemonicSeen : Bool} {lexeme : Lexeme}
  {lexemes : List Lexeme} {kind : TokenKind} {token : Token}
  {tokens : List Token}

theorem tokenKind_eq_ok_iff :
    lexeme.tokenKind mnemonicSeen = .ok kind ↔
      Means mnemonicSeen lexeme kind := by
  constructor
  · intro means
    unfold tokenKind at means
    split at means
    case h_1 =>
      cases means
      exact .openParenthesis
    case h_2 =>
      cases means
      exact .closeParenthesis
    case h_3 name =>
      split at means
      next found names =>
        cases means
        exact .register names
      next => cases means
    case h_4 text =>
      split at means
      next value denotes =>
        cases means
        exact .integer denotes
      next => cases means
      next => cases means
    case h_5 name =>
      cases means
      exact .label name
    case h_6 name =>
      split at means
      next later =>
        cases means
        exact .symbol name later
      next first =>
        cases means
        exact .mnemonic name (Bool.eq_false_iff.mpr first)
    case h_7 => cases means
  · intro means
    cases means with
    | openParenthesis | closeParenthesis | label name => rfl
    | register names => simp only [tokenKind, names]
    | integer denotes => simp only [tokenKind, denotes]
    | mnemonic name first =>
        rw [tokenKind, first]
        rfl
    | symbol name later => rw [tokenKind, if_pos later]

theorem Means.ne_stray (means : Means mnemonicSeen lexeme kind)
    (character : Char) : lexeme ≠ .stray character := by
  rintro rfl
  cases means

theorem tokens_eq_ok_iff :
    Lexeme.tokens line mnemonicSeen lexemes = .ok tokens ↔
      StandFor line mnemonicSeen lexemes tokens := by
  constructor
  · intro reads
    induction lexemes generalizing mnemonicSeen tokens with
    | nil =>
        cases reads
        exact .nil
    | cons lexeme lexemes inductionHypothesis =>
        rw [Lexeme.tokens] at reads
        cases means : lexeme.tokenKind mnemonicSeen with
        | error fault => simp [means] at reads
        | ok kind =>
            simp only [means] at reads
            cases others : Lexeme.tokens line
                (mnemonicSeen || lexeme.isWord) lexemes with
            | error lexError => simp [others] at reads
            | ok more =>
                simp only [others] at reads
                cases reads
                exact .cons means (inductionHypothesis others)
  · intro standFor
    induction standFor with
    | nil => rfl
    | cons means others inductionHypothesis =>
        simp only [Lexeme.tokens, means, inductionHypothesis]

theorem StandFor.line_eq
    (standFor : StandFor line mnemonicSeen lexemes tokens) :
    ∀ token ∈ tokens, token.line = line := by
  induction standFor with
  | nil => simp
  | cons means others inductionHypothesis =>
      exact List.forall_mem_cons.mpr ⟨rfl, inductionHypothesis⟩

theorem StandFor.map_text
    (standFor : StandFor line mnemonicSeen lexemes tokens) :
    tokens.map (fun token => token.text.toList) = lexemes.map text := by
  induction standFor with
  | nil => rfl
  | cons means others inductionHypothesis =>
      rw [List.map_cons, List.map_cons, inductionHypothesis,
        String.toList_ofList]

/-- The lexeme of a token, with the lexemes of the tokens before it. -/
theorem StandFor.exists_cut {before after : List Token}
    (standFor : StandFor line mnemonicSeen lexemes
      (before ++ token :: after)) :
    ∃ earlier lexeme later, lexemes = earlier ++ lexeme :: later ∧
      StandFor line mnemonicSeen earlier before ∧
      lexeme.tokenKind (mnemonicSeen || earlier.any isWord) =
        .ok token.kind ∧
      token.text = String.ofList lexeme.text ∧
      ∃ seen, StandFor line seen later after := by
  generalize whole : before ++ token :: after = tokens at standFor
  induction standFor generalizing before with
  | nil => simp at whole
  | @cons seen lexeme kind lexemes tokens means others inductionHypothesis =>
      cases before with
      | nil =>
          cases whole
          refine ⟨[], lexeme, lexemes, rfl, .nil, ?_, rfl, _, others⟩
          rw [List.any_nil, Bool.or_false]
          exact means
      | cons head before =>
          cases whole
          obtain ⟨earlier, found, later, rfl, first, meansFound, text,
            rest⟩ := inductionHypothesis rfl
          refine ⟨lexeme :: earlier, found, later, rfl, .cons means first,
            ?_, text, rest⟩
          rw [List.any_cons, ← Bool.or_assoc]
          exact meansFound

theorem StandFor.exists_of_mem
    (standFor : StandFor line mnemonicSeen lexemes tokens)
    (member : token ∈ tokens) :
    ∃ lexeme ∈ lexemes, ∃ seen, lexeme.tokenKind seen = .ok token.kind := by
  obtain ⟨before, after, rfl⟩ := List.append_of_mem member
  obtain ⟨earlier, lexeme, later, rfl, _, means, _⟩ := standFor.exists_cut
  exact ⟨lexeme, by simp, _, means⟩

theorem StandFor.not_stray_mem
    (standFor : StandFor line mnemonicSeen lexemes tokens) (character : Char) :
    .stray character ∉ lexemes := by
  induction standFor with
  | nil => exact List.not_mem_nil
  | cons means others inductionHypothesis =>
      have notFirst := (tokenKind_eq_ok_iff.mp means).ne_stray character
      rw [List.mem_cons, not_or]
      exact ⟨notFirst.symm, inductionHypothesis⟩

/-- Lexemes after the mnemonic of a line stand for tokens of the kinds that
they have there. -/
theorem exists_standFor_of_kinds (line : Nat) {kinds : List TokenKind}
    (means : List.Forall₂
      (fun lexeme kind => tokenKind true lexeme = .ok kind) lexemes kinds) :
    ∃ tokens, StandFor line true lexemes tokens ∧
      tokens.map Token.kind = kinds ∧
      ∀ token ∈ tokens, token.line = line := by
  induction means with
  | nil => exact ⟨[], .nil, rfl, by simp⟩
  | cons means _ inductionHypothesis =>
      obtain ⟨tokens, standFor, rfl, onLine⟩ := inductionHypothesis
      exact ⟨_ :: tokens, .cons means standFor, rfl,
        List.forall_mem_cons.mpr ⟨rfl, onLine⟩⟩

/-- The first lexeme that stands for no token is the fault of its line. -/
theorem tokens_of_fault (line : Nat) {before after : List Lexeme}
    {kinds : List TokenKind} {lexeme : Lexeme} {fault : LexFault}
    (means : List.Forall₂ (fun lexeme kind => tokenKind true lexeme = .ok kind)
      before kinds)
    (fails : tokenKind true lexeme = .error fault) :
    Lexeme.tokens line true (before ++ lexeme :: after) =
      .error ⟨line, fault⟩ := by
  induction means with
  | nil => simp only [List.nil_append, tokens, fails]
  | cons meansFirst _ inductionHypothesis =>
      simp only [List.cons_append, tokens, meansFirst, Bool.true_or,
        inductionHypothesis]

/-! ## Values of tokens -/

/-- A register token carries the number of a register. -/
theorem register_lt {index : UInt8}
    (means : lexeme.tokenKind mnemonicSeen = .ok (.register index)) :
    index < 32 := by
  cases tokenKind_eq_ok_iff.mp means with
  | @register name found names =>
      have inside : found.val < UInt8.size :=
        Nat.lt_trans found.isLt (by decide)
      rw [UInt8.lt_iff_toNat_lt, UInt8.toNat_ofNat_of_lt' inside]
      exact found.isLt

/-- A label token carries a name. -/
theorem isName_of_label {name : String} (proper : lexeme.isProper = true)
    (means : lexeme.tokenKind mnemonicSeen = .ok (.label name)) :
    isName name.toList = true := by
  cases tokenKind_eq_ok_iff.mp means with
  | label name =>
      rw [String.toList_ofList]
      exact proper

end Lexeme

/-! ## Lines -/

/-- Lines, the first of which is numbered `line`, stand for tokens. -/
inductive LinesStandFor : Nat → List (List Char) → List Token → Prop where
  | nil {line : Nat} : LinesStandFor line [] []
  | cons {line : Nat} {text : List Char} {lexemes : List Lexeme}
      {texts : List (List Char)} {tokens more : List Token}
      (written : Lexeme.Written (codeOfLine text) lexemes)
      (standFor : Lexeme.StandFor line false lexemes tokens)
      (others : LinesStandFor (line + 1) texts more) :
      LinesStandFor line (text :: texts) (tokens ++ more)

variable {line : Nat} {texts : List (List Char)} {token : Token}
  {tokens : List Token} {source : String}

theorem tokensOfLines_cons_eq_ok_iff {text : List Char} :
    tokensOfLines line (text :: texts) = .ok tokens ↔
      ∃ part more, tokens = part ++ more ∧
        tokensOfLine line text = .ok part ∧
        tokensOfLines (line + 1) texts = .ok more := by
  rw [tokensOfLines]
  cases tokensOfLine line text with
  | error lexError => simp
  | ok part =>
      cases tokensOfLines (line + 1) texts with
      | error lexError => simp
      | ok more => simp [eq_comm]

theorem tokensOfLine_eq_ok_iff {text : List Char} :
    tokensOfLine line text = .ok tokens ↔
      ∃ lexemes, Lexeme.Written (codeOfLine text) lexemes ∧
        Lexeme.StandFor line false lexemes tokens := by
  rw [tokensOfLine, Lexeme.tokens_eq_ok_iff]
  constructor
  · intro standFor
    exact ⟨_, Lexeme.split_eq_iff.mp rfl, standFor⟩
  · rintro ⟨lexemes, written, standFor⟩
    rw [Lexeme.split_eq_iff.mpr written]
    exact standFor

theorem tokensOfLines_eq_ok_iff :
    tokensOfLines line texts = .ok tokens ↔
      LinesStandFor line texts tokens := by
  constructor
  · intro reads
    induction texts generalizing line tokens with
    | nil =>
        cases reads
        exact .nil
    | cons text texts inductionHypothesis =>
        obtain ⟨part, more, rfl, readsFirst, readsOthers⟩ :=
          tokensOfLines_cons_eq_ok_iff.mp reads
        obtain ⟨lexemes, written, standFor⟩ :=
          tokensOfLine_eq_ok_iff.mp readsFirst
        exact .cons written standFor (inductionHypothesis readsOthers)
  · intro standFor
    induction standFor with
    | nil => rfl
    | cons written standFor others inductionHypothesis =>
        exact tokensOfLines_cons_eq_ok_iff.mpr ⟨_, _, rfl,
          tokensOfLine_eq_ok_iff.mpr ⟨_, written, standFor⟩,
          inductionHypothesis⟩

theorem LinesStandFor.exists_of_mem (standFor : LinesStandFor line texts tokens)
    (member : token ∈ tokens) :
    ∃ lexeme : Lexeme, lexeme.isProper = true ∧
      ∃ seen, lexeme.tokenKind seen = .ok token.kind := by
  induction standFor with
  | nil => cases member
  | cons written standFor others inductionHypothesis =>
      rcases List.mem_append.mp member with onLine | inRest
      · obtain ⟨lexeme, among, means⟩ := standFor.exists_of_mem onLine
        exact ⟨lexeme, written.isProper lexeme among, means⟩
      · exact inductionHypothesis inRest

/-- Every register token of a text carries the number of a register. -/
theorem register_lt_of_lex (reads : lex source = .ok tokens)
    (member : token ∈ tokens) {index : UInt8}
    (kind : token.kind = .register index) : index < 32 := by
  obtain ⟨lexeme, _, seen, means⟩ :=
    (tokensOfLines_eq_ok_iff.mp reads).exists_of_mem member
  rw [kind] at means
  exact Lexeme.register_lt means

/-- Every label token of a text carries a name. -/
theorem isName_of_lex (reads : lex source = .ok tokens)
    (member : token ∈ tokens) {name : String}
    (kind : token.kind = .label name) : isName name.toList = true := by
  obtain ⟨lexeme, proper, seen, means⟩ :=
    (tokensOfLines_eq_ok_iff.mp reads).exists_of_mem member
  rw [kind] at means
  exact Lexeme.isName_of_label proper means

end MiniMips
