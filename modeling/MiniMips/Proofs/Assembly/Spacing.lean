import MiniMips.Proofs.Assembly.Lines
import MiniMips.Proofs.Assembly.TokensOnLine

/-!
Contract: texts that differ in their spacing only.

Owns:
- words spread over a line, with separators between them, and a comment behind
  them;
- that words spread over a line are cut apart again, where each of them is the
  text of a lexeme;
- that a text which holds the tokens of another one, each on its line, has the
  same tokens.
-/

namespace MiniMips

/-- Words that are spread over a line.  Separators may stand before the first
and after the last of them, and have to stand between two. -/
inductive Spread : List (List Char) → List Char → Prop where
  | blank {gap : List Char} (separates : gap.all isSeparator = true) :
      Spread [] gap
  | last {indent word gap : List Char}
      (indented : indent.all isSeparator = true)
      (separates : gap.all isSeparator = true) :
      Spread [word] (indent ++ (word ++ gap))
  | more {indent word gap rest next : List Char} {words : List (List Char)}
      (indented : indent.all isSeparator = true)
      (separates : gap.all isSeparator = true) (apart : gap ≠ [])
      (others : Spread (next :: words) rest) :
      Spread (word :: next :: words) (indent ++ (word ++ (gap ++ rest)))

/-- A line over which words are spread, with or without a comment behind
them. -/
def LineOf (words : List (List Char)) (line : List Char) : Prop :=
  ∃ code comment, line = code ++ comment ∧ Spread words code ∧
    ∀ first ∈ comment.head?, first = '#'

/-- A text that holds tokens, each on its own line. -/
structure TextOf (tokens : List Token) (text : List Char) : Prop where
  lines : ∀ place line, (linesOfText text)[place]? = some line →
    LineOf ((Token.onLine (1 + place) tokens).map
      (fun token => token.text.toList)) line
  enough : ∀ token ∈ tokens, token.line ≤ (linesOfText text).length

variable {line : Nat} {text code : List Char} {lexemes : List Lexeme}
  {tokens : List Token} {source : String}

/-- Texts of lexemes that are spread over a line are cut into these lexemes. -/
theorem Spread.written (spread : Spread (lexemes.map Lexeme.text) code)
    (proper : ∀ lexeme ∈ lexemes, lexeme.isProper = true) :
    Lexeme.Written code lexemes := by
  generalize spelled : lexemes.map Lexeme.text = words at spread
  induction spread generalizing lexemes with
  | @blank gap separates =>
      rw [List.map_eq_nil_iff.mp spelled]
      exact Lexeme.Written.blank separates
  | @last indent word gap indented separates =>
      obtain ⟨lexeme, rest, rfl, rfl, none⟩ := List.map_eq_cons_iff.mp spelled
      rw [List.map_eq_nil_iff.mp none] at proper ⊢
      have single := Lexeme.Written.single (proper lexeme (by simp))
      refine (single.append (.blank separates) ?_).indented indented
      intro first member
      exact List.all_eq_true.mp separates first (List.mem_of_mem_head? member)
  | @more indent word gap rest next words indented separates apart others
      inductionHypothesis =>
      obtain ⟨lexeme, lexemes, rfl, rfl, same⟩ := List.map_eq_cons_iff.mp spelled
      obtain ⟨properFirst, properOthers⟩ := List.forall_mem_cons.mp proper
      have written := inductionHypothesis properOthers same
      have single := Lexeme.Written.single properFirst
      refine (single.append (written.indented separates) ?_).indented indented
      -- The gap is not empty, so what follows the word begins with it.
      obtain ⟨separator, gap, rfl⟩ := List.exists_cons_of_ne_nil apart
      intro first member
      cases member
      exact (Bool.and_eq_true_iff.mp separates).1

/-- A line over which the words of tokens are spread has these tokens. -/
theorem tokensOfLine_of_lineOf
    (standFor : Lexeme.StandFor line false lexemes tokens)
    (proper : ∀ lexeme ∈ lexemes, lexeme.isProper = true)
    (spread : LineOf (tokens.map (fun token => token.text.toList)) text) :
    tokensOfLine line text = .ok tokens := by
  obtain ⟨code, comment, rfl, spread, commented⟩ := spread
  rw [standFor.map_text] at spread
  have written := spread.written proper
  have uncommented : '#' ∉ code := by
    intro member
    have known := written.not_isForeign (standFor.not_stray_mem '#') member
    contradiction
  refine tokensOfLine_eq_ok_iff.mpr ⟨lexemes, ?_, standFor⟩
  rw [codeOfLine_append uncommented, codeOfLine_comment commented,
    List.append_nil]
  exact written

/-- **Spacing.**  A text that holds the tokens of another one, each on its own
line, with separators between them and with comments behind them, has exactly
the same tokens. -/
theorem lex_of_textOf (source other : String) (tokens : List Token)
    (reads : lex source = .ok tokens)
    (holds : TextOf tokens other.toList) : lex other = .ok tokens := by
  have inLines := (lex_eq_ok_iff_onLine.mp reads).1
  refine lex_eq_ok_iff_onLine.mpr ⟨⟨inLines.ordered, ?_⟩, ?_⟩
  · intro token member
    have bounds := inLines.within token member
    have bound := holds.enough token member
    omega
  · intro place line present
    obtain ⟨lexemes, proper, standFor⟩ :=
      exists_standFor_of_lex reads (1 + place)
    exact tokensOfLine_of_lineOf standFor proper
      (holds.lines place line present)

/-- A label and a parenthesis that touch what follows them, taken apart. -/
theorem lex_of_textOf_apart :
    let tokens : List Token :=
      [⟨.label "x", "x:", 2⟩, ⟨.mnemonic "j", "J", 2⟩,
        ⟨.openParenthesis, "(", 2⟩]
    lex "# entry\nx:J(" = .ok tokens ∧
      TextOf tokens " ,\n x: J\t( # jump\n#".toList ∧
      lex " ,\n x: J\t( # jump\n#" = .ok tokens := by
  intro tokens
  have reads : lex "# entry\nx:J(" = .ok tokens := by decide +kernel
  have holds : TextOf tokens " ,\n x: J\t( # jump\n#".toList := by
    refine ⟨fun place line present => ?_, by decide⟩
    match place with
    | 0 =>
        cases present
        exact ⟨[' ', ','], [], rfl, .blank rfl, by simp⟩
    | 1 =>
        cases present
        refine ⟨" x: J\t( ".toList, "# jump".toList, rfl, ?_, by simp⟩
        exact @Spread.more [' '] ['x', ':'] [' '] _ _ _ rfl rfl (by simp)
          (@Spread.more [] ['J'] ['\t'] _ _ _ rfl rfl (by simp)
            (@Spread.last [] ['('] [' '] rfl rfl))
    | 2 =>
        cases present
        exact ⟨[], ['#'], rfl, .blank rfl, by simp⟩
    | place + 3 => contradiction
  exact ⟨reads, holds, lex_of_textOf _ _ tokens reads holds⟩

end MiniMips
