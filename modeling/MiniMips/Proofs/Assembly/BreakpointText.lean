import MiniMips.Assembly.Lexing
import MiniMips.Proofs.Assembly.Disassembly
import MiniMips.Proofs.Assembly.Lines
import MiniMips.Proofs.LetterCase
import MiniMips.Proofs.Machine.Breakpoints

/-!
Contract: source texts with every breakpoint made idle.

Owns:
- replacing the mnemonic of a breakpoint in a text, in the lexemes of a line,
  and in tokens;
- that the tokens of a text in which it is replaced are the tokens of the text
  with the same replacement made in them.

Only the mnemonic of a line is replaced: its first bare name.  A label or a
comment may hold the same word.
-/

namespace MiniMips

/-- The mnemonic that stands in for a name: the one of an idle instruction if
the name is that of a breakpoint, in any case, and otherwise the name itself. -/
def mnemonicWithoutBreakpoint (name : String) : String :=
  if Opcode.ofMnemonic? name.toList = some .breakpoint then
    Opcode.nop.mnemonic
  else
    name

namespace Lexeme

def withoutBreakpoint : Lexeme → Lexeme
  | .word name => .word (mnemonicWithoutBreakpoint (String.ofList name)).toList
  | lexeme => lexeme

/-- The lexemes of a line with its mnemonic replaced: the first bare name. -/
def replaceMnemonic : List Lexeme → List Lexeme
  | [] => []
  | lexeme :: rest =>
      lexeme.withoutBreakpoint ::
        if lexeme.isWord then rest else replaceMnemonic rest

end Lexeme

/-- The code of a line with its mnemonic replaced. -/
def codeWithoutBreakpoint : List Char → List Char
  | [] => []
  | first :: rest =>
      if isSeparator first then
        first :: codeWithoutBreakpoint rest
      else
        (Lexeme.next first rest).1.withoutBreakpoint.text ++
          if (Lexeme.next first rest).1.isWord then
            (Lexeme.next first rest).2
          else
            codeWithoutBreakpoint (Lexeme.next first rest).2
termination_by characters => characters.length
decreasing_by
  · simp
  · have bound := Lexeme.length_next_le first rest
    simp only [List.length_cons]
    omega

/-- A line with its mnemonic replaced.  The comment stays. -/
def lineWithoutBreakpoint (line : List Char) : List Char :=
  codeWithoutBreakpoint (codeOfLine line) ++
    line.dropWhile (fun character => character != '#')

/-- A source text in which every breakpoint is made idle. -/
def sourceWithoutBreakpoints (source : String) : String :=
  String.ofList (['\n'].intercalate
    ((linesOfText source.toList).map lineWithoutBreakpoint))

def Token.withoutBreakpoint (token : Token) : Token :=
  match token.kind with
  | .mnemonic name =>
      { token with
        kind := .mnemonic (mnemonicWithoutBreakpoint name)
        text := mnemonicWithoutBreakpoint token.text }
  | _ => token

/-! ## Mnemonics -/

theorem mnemonicWithoutBreakpoint_mnemonic (opcode : Opcode) :
    mnemonicWithoutBreakpoint opcode.mnemonic =
      opcode.withoutBreakpoint.mnemonic := by
  unfold mnemonicWithoutBreakpoint
  rw [Opcode.ofMnemonic?_mnemonic]
  cases opcode <;> rfl

theorem ofMnemonic?_mnemonicWithoutBreakpoint (name : String) :
    Opcode.ofMnemonic? (mnemonicWithoutBreakpoint name).toList =
      (Opcode.ofMnemonic? name.toList).map Opcode.withoutBreakpoint := by
  unfold mnemonicWithoutBreakpoint
  split
  next breaks =>
    rw [breaks, Opcode.ofMnemonic?_mnemonic]
    rfl
  next running =>
    cases known : Opcode.ofMnemonic? name.toList with
    | none => rfl
    | some opcode =>
        have goesOn : opcode ≠ .breakpoint := by
          rintro rfl
          exact running known
        exact congrArg some (Opcode.withoutBreakpoint_eq_self goesOn).symm

/-- It makes no difference whether a name is put in lower case before or after
it is replaced. -/
theorem mnemonicWithoutBreakpoint_toLower (name : List Char) :
    String.ofList ((mnemonicWithoutBreakpoint
        (String.ofList name)).toList.map Char.toLower) =
      mnemonicWithoutBreakpoint (String.ofList (name.map Char.toLower)) := by
  unfold mnemonicWithoutBreakpoint
  rw [String.toList_ofList, String.toList_ofList,
    Opcode.ofMnemonic?_map_toLower]
  split
  · rw [Opcode.toLower_mnemonic, String.ofList_toList]
  · rw [String.toList_ofList]

/-- The name of a breakpoint begins with a letter. -/
theorem isAlpha_of_breakpoint {first : Char} {rest : List Char}
    (breaks : Opcode.ofMnemonic? (first :: rest) = some .breakpoint) :
    first.isAlpha = true := by
  unfold Opcode.ofMnemonic? at breaks
  have found := List.find?_some breaks
  have same : Opcode.breakpoint.mnemonic.toList =
      (first :: rest).map Char.toLower := of_decide_eq_true found
  have head : 'b' = first.toLower := (List.cons.inj same).1
  rw [← isAlpha_toLower, ← head]
  rfl

theorem Token.withoutBreakpoint_of_ne_mnemonic {token : Token}
    (operand : ∀ name, token.kind ≠ .mnemonic name) :
    token.withoutBreakpoint = token := by
  unfold withoutBreakpoint
  split
  next name names => exact absurd names (operand name)
  next => rfl

/-! ## Lexemes -/

namespace Lexeme

variable {lexeme : Lexeme} {code rest : List Char} {lexemes : List Lexeme}
  {line : Nat}

theorem withoutBreakpoint_eq_self (named : lexeme.isWord = false) :
    lexeme.withoutBreakpoint = lexeme := by
  cases lexeme with
  | word name => cases named
  | _ => rfl

theorem continues_withoutBreakpoint (lexeme : Lexeme) :
    lexeme.withoutBreakpoint.continues = lexeme.continues := by
  cases lexeme <;> rfl

/-- A lexeme is replaced only where it is the name of a breakpoint. -/
theorem withoutBreakpoint_eq_or (lexeme : Lexeme) :
    lexeme.withoutBreakpoint = lexeme ∨
      ∃ name, lexeme = .word name ∧
        Opcode.ofMnemonic? name = some .breakpoint ∧
        lexeme.withoutBreakpoint = .word Opcode.nop.mnemonic.toList := by
  cases lexeme with
  | word name =>
      rw [withoutBreakpoint, mnemonicWithoutBreakpoint, String.toList_ofList]
      by_cases breaks : Opcode.ofMnemonic? name = some .breakpoint
      · rw [if_pos breaks]
        exact .inr ⟨name, rfl, breaks, rfl⟩
      · rw [if_neg breaks, String.toList_ofList]
        exact .inl rfl
  | _ => exact .inl rfl

theorem isProper_withoutBreakpoint (proper : lexeme.isProper = true) :
    lexeme.withoutBreakpoint.isProper = true := by
  rcases lexeme.withoutBreakpoint_eq_or with same | ⟨_, _, _, idle⟩
  · rw [same]
    exact proper
  · rw [idle]
    exact Opcode.isName_mnemonic .nop

theorem codeWithoutBreakpoint_append (proper : lexeme.isProper = true)
    (apart : ∀ first ∈ rest.head?, lexeme.continues first = false) :
    codeWithoutBreakpoint (lexeme.text ++ rest) =
      lexeme.withoutBreakpoint.text ++
        if lexeme.isWord then rest else codeWithoutBreakpoint rest := by
  obtain ⟨first, more, text, lexical, cut⟩ := next_of_proper proper apart
  rw [text, List.cons_append, codeWithoutBreakpoint, lexical,
    if_neg Bool.false_ne_true, cut]

/-- What stands at the front of a code is the same after its mnemonic is
replaced, or both are letters. -/
theorem head?_codeWithoutBreakpoint (written : Written code lexemes) :
    ∀ first ∈ (codeWithoutBreakpoint code).head?,
      first ∈ code.head? ∨
        first.isAlpha = true ∧ ∃ letter ∈ code.head?, letter.isAlpha = true := by
  cases written with
  | nil => simp [codeWithoutBreakpoint]
  | separator separates others =>
      rw [codeWithoutBreakpoint, if_pos separates]
      exact fun first member => .inl member
  | @lexeme lexeme rest lexemes proper apart others =>
      obtain ⟨head, more, text, _⟩ := next_of_proper proper apart
      rw [codeWithoutBreakpoint_append proper apart]
      rcases lexeme.withoutBreakpoint_eq_or with
        same | ⟨name, rfl, breaks, idle⟩
      · rw [same, text]
        exact fun first member => .inl member
      · have named : name = head :: more := text
        rw [named] at breaks
        rw [idle, text]
        rintro first ⟨⟩
        exact .inr ⟨rfl, head, rfl, isAlpha_of_breakpoint breaks⟩

/-- A lexeme that a letter does not continue is continued by nothing. -/
theorem continues_of_isAlpha {letter : Char} (alpha : letter.isAlpha = true)
    (apart : lexeme.continues letter = false) (character : Char) :
    lexeme.continues character = false := by
  cases lexeme with
  | register name | word name =>
      simp [continues, isNameCharacter, Char.isAlphanum, alpha] at apart
  | integer text =>
      simp [continues, isLiteralCharacter, Char.isAlphanum, alpha] at apart
  | _ => rfl

/-- Replacing the mnemonic in a code comes to replacing it among its
lexemes. -/
theorem Written.replaceMnemonic (written : Written code lexemes) :
    Written (codeWithoutBreakpoint code) (replaceMnemonic lexemes) := by
  induction written with
  | nil =>
      rw [codeWithoutBreakpoint]
      exact .nil
  | separator separates others inductionHypothesis =>
      rw [codeWithoutBreakpoint, if_pos separates]
      exact .separator separates inductionHypothesis
  | @lexeme lexeme rest lexemes proper apart others inductionHypothesis =>
      rw [codeWithoutBreakpoint_append proper apart, Lexeme.replaceMnemonic]
      have properIdle := isProper_withoutBreakpoint proper
      cases named : lexeme.isWord with
      | true =>
          refine .lexeme properIdle ?_ others
          rw [continues_withoutBreakpoint]
          exact apart
      | false =>
          -- The mnemonic may follow directly, as after a label or a
          -- parenthesis.  Its first letter is then another one.
          refine .lexeme properIdle ?_ inductionHypothesis
          rw [continues_withoutBreakpoint]
          intro first member
          rcases head?_codeWithoutBreakpoint others first member with
            same | ⟨_, letter, before, alpha⟩
          · exact apart first same
          · exact continues_of_isAlpha alpha (apart letter before) first

theorem mem_text_withoutBreakpoint {character : Char}
    (member : character ∈ lexeme.withoutBreakpoint.text) :
    character ∈ lexeme.text ∨ character ∈ Opcode.nop.mnemonic.toList := by
  rcases lexeme.withoutBreakpoint_eq_or with same | ⟨_, _, _, idle⟩
  · rw [same] at member
    exact .inl member
  · rw [idle] at member
    exact .inr member

/-- Replacing a mnemonic brings no characters into a code but those of the
mnemonic of an idle instruction. -/
theorem mem_codeWithoutBreakpoint (written : Written code lexemes) :
    ∀ character ∈ codeWithoutBreakpoint code,
      character ∈ code ∨ character ∈ Opcode.nop.mnemonic.toList := by
  induction written with
  | nil => simp [codeWithoutBreakpoint]
  | separator separates others inductionHypothesis =>
      rw [codeWithoutBreakpoint, if_pos separates]
      intro character member
      rcases List.mem_cons.mp member with rfl | inRest
      · exact .inl (List.mem_cons_self ..)
      · exact (inductionHypothesis character inRest).imp_left
          (List.mem_cons_of_mem _)
  | @lexeme lexeme rest lexemes proper apart others inductionHypothesis =>
      rw [codeWithoutBreakpoint_append proper apart]
      intro character member
      rcases List.mem_append.mp member with inText | inRest
      · refine (mem_text_withoutBreakpoint inText).imp_left ?_
        exact List.mem_append_left rest
      · split at inRest
        · exact .inl (List.mem_append_right _ inRest)
        · exact (inductionHypothesis character inRest).imp_left
            (List.mem_append_right _)

/-! ## Tokens -/

theorem tokenKind_ne_mnemonic {mnemonicSeen : Bool} {kind : TokenKind}
    (means : lexeme.tokenKind mnemonicSeen = .ok kind)
    (operand : mnemonicSeen = true ∨ lexeme.isWord = false) (name : String) :
    kind ≠ .mnemonic name := by
  rintro rfl
  unfold tokenKind at means
  split at means
  case h_6 =>
    rcases operand with rfl | unnamed
    · cases means
    · cases unnamed
  case h_3 | h_4 => split at means <;> cases means
  all_goals cases means

/-- After the mnemonic of a line there is no other one. -/
theorem tokens_withoutBreakpoint_of_seen (line : Nat)
    (lexemes : List Lexeme) :
    (Lexeme.tokens line true lexemes).map (List.map Token.withoutBreakpoint) =
      Lexeme.tokens line true lexemes := by
  induction lexemes with
  | nil => rfl
  | cons lexeme lexemes inductionHypothesis =>
      rw [Lexeme.tokens, Bool.true_or]
      cases means : lexeme.tokenKind true with
      | error fault => rfl
      | ok kind =>
          cases others : Lexeme.tokens line true lexemes with
          | error lexError => rfl
          | ok more =>
              rw [others] at inductionHypothesis
              have same : more.map Token.withoutBreakpoint = more :=
                Except.ok.inj inductionHypothesis
              have operand := tokenKind_ne_mnemonic means (.inl rfl)
              show Except.ok (_ :: _) = _
              rw [same, Token.withoutBreakpoint_of_ne_mnemonic operand]

/-- Replacing the mnemonic among the lexemes of a line comes to replacing it
among its tokens. -/
theorem tokens_replaceMnemonic (line : Nat) (lexemes : List Lexeme) :
    Lexeme.tokens line false (replaceMnemonic lexemes) =
      (Lexeme.tokens line false lexemes).map
        (List.map Token.withoutBreakpoint) := by
  induction lexemes with
  | nil => rfl
  | cons lexeme lexemes inductionHypothesis =>
      rw [replaceMnemonic]
      cases named : lexeme.isWord with
      | true =>
          cases lexeme with
          | word name =>
              have same := tokens_withoutBreakpoint_of_seen line lexemes
              have lowered := mnemonicWithoutBreakpoint_toLower name
              simp only [withoutBreakpoint, if_true, Lexeme.tokens, tokenKind,
                Bool.false_eq_true, if_false, isWord, Bool.or_true, lowered]
              cases others : Lexeme.tokens line true lexemes with
              | error lexError => rfl
              | ok more =>
                  rw [others] at same
                  have unchanged : more.map Token.withoutBreakpoint = more :=
                    Except.ok.inj same
                  show _ = Except.ok (_ :: _)
                  rw [unchanged]
                  simp only [Token.withoutBreakpoint, text,
                    String.ofList_toList]
          | _ => cases named
      | false =>
          rw [withoutBreakpoint_eq_self named, if_neg Bool.false_ne_true,
            Lexeme.tokens, Lexeme.tokens, named, Bool.or_self,
            inductionHypothesis]
          cases means : lexeme.tokenKind false with
          | error fault => rfl
          | ok kind =>
              have operand := tokenKind_ne_mnemonic means (.inr named)
              cases others : Lexeme.tokens line false lexemes with
              | error lexError => rfl
              | ok more =>
                  show _ = Except.ok (_ :: _)
                  rw [Token.withoutBreakpoint_of_ne_mnemonic operand]
                  rfl

end Lexeme

/-! ## Lines -/

theorem codeOfLine_lineWithoutBreakpoint (line : List Char) :
    codeOfLine (lineWithoutBreakpoint line) =
      codeWithoutBreakpoint (codeOfLine line) := by
  have uncommented : '#' ∉ codeWithoutBreakpoint (codeOfLine line) := by
    intro member
    rcases Lexeme.mem_codeWithoutBreakpoint (Lexeme.split_eq_iff.mp rfl) '#'
        member with before | idle
    · have code := List.all_eq_true.mp List.all_takeWhile '#' before
      contradiction
    · revert idle
      decide
  have commented : ∀ first ∈ (line.dropWhile (fun character =>
      character != '#')).head?, first = '#' := by
    intro first member
    have refused := List.head?_dropWhile_not (fun character =>
      character != '#') line
    rw [member] at refused
    simpa using refused
  rw [lineWithoutBreakpoint, codeOfLine_append uncommented,
    codeOfLine_comment commented, List.append_nil]

theorem newline_not_mem_lineWithoutBreakpoint {line : List Char}
    (unbroken : '\n' ∉ line) : '\n' ∉ lineWithoutBreakpoint line := by
  intro member
  rcases List.mem_append.mp member with inCode | inComment
  · rcases Lexeme.mem_codeWithoutBreakpoint (Lexeme.split_eq_iff.mp rfl)
        _ inCode with before | idle
    · exact unbroken ((List.takeWhile_sublist _).subset before)
    · exact absurd idle (by decide)
  · exact unbroken ((List.dropWhile_sublist _).subset inComment)

theorem tokensOfLine_lineWithoutBreakpoint (line : Nat) (text : List Char) :
    tokensOfLine line (lineWithoutBreakpoint text) =
      (tokensOfLine line text).map (List.map Token.withoutBreakpoint) := by
  have written : Lexeme.Written (codeOfLine text)
      (Lexeme.split (codeOfLine text)) := Lexeme.split_eq_iff.mp rfl
  unfold tokensOfLine
  rw [codeOfLine_lineWithoutBreakpoint,
    Lexeme.split_eq_iff.mpr written.replaceMnemonic,
    Lexeme.tokens_replaceMnemonic]

theorem tokensOfLines_withoutBreakpoint (line : Nat)
    (texts : List (List Char)) :
    tokensOfLines line (texts.map lineWithoutBreakpoint) =
      (tokensOfLines line texts).map (List.map Token.withoutBreakpoint) := by
  induction texts generalizing line with
  | nil => rfl
  | cons text texts inductionHypothesis =>
      rw [List.map_cons, tokensOfLines, tokensOfLines,
        tokensOfLine_lineWithoutBreakpoint, inductionHypothesis]
      cases tokensOfLine line text with
      | error lexError => rfl
      | ok tokens =>
          cases tokensOfLines (line + 1) texts with
          | error lexError => rfl
          | ok more =>
              show Except.ok _ = Except.ok _
              rw [List.map_append]

/-- **Tokens.**  A text with every breakpoint made idle has the tokens of the
text with the same replacement made in them, and the same fault. -/
theorem lex_sourceWithoutBreakpoints (source : String) :
    lex (sourceWithoutBreakpoints source) =
      (lex source).map (List.map Token.withoutBreakpoint) := by
  have some : (linesOfText source.toList).map lineWithoutBreakpoint ≠ [] := by
    rw [Ne, List.map_eq_nil_iff]
    exact linesOfText_ne_nil source.toList
  have unbroken : ∀ line ∈
      (linesOfText source.toList).map lineWithoutBreakpoint,
        '\n' ∉ line := by
    intro line member
    obtain ⟨original, among, rfl⟩ := List.mem_map.mp member
    exact newline_not_mem_lineWithoutBreakpoint
      (newline_not_mem_linesOfText source.toList original among)
  unfold lex sourceWithoutBreakpoints
  rw [String.toList_ofList, linesOfText_intercalate some unbroken,
    tokensOfLines_withoutBreakpoint]

example : sourceWithoutBreakpoints "break: BREAK # break\n\tj break\n" =
    "break: nop # break\n\tj break\n" := by
  decide +kernel

end MiniMips
