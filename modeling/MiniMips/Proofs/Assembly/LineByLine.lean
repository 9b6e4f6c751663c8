import MiniMips.Proofs.Assembly.Lexemes
import MiniMips.Proofs.Assembly.Lines

/-!
Contract: a text is read line by line.

Owns:
- tokens and faults of lines that stand further down a text, which differ in
  their line number only;
- the tokens of lines that follow each other, put together from those of each
  line by itself, and the first line that has none;
- the lines of a text as line endings delimit them, which are read alike.
-/

namespace MiniMips

/-- The same token so many lines further down. -/
def Token.moveDown (count : Nat) (token : Token) : Token :=
  { token with line := token.line + count }

/-- The same fault so many lines further down. -/
def LexError.moveDown (count : Nat) (lexError : LexError) : LexError :=
  { lexError with line := lexError.line + count }

/-- What is read of lines that stand so many lines further down. -/
def readingMovedDown (count : Nat) :
    Except LexError (List Token) → Except LexError (List Token)
  | .error lexError => .error (lexError.moveDown count)
  | .ok tokens => .ok (tokens.map (Token.moveDown count))

/-- A line without the carriage return at its end, if it has one. -/
def withoutReturn (line : List Char) : List Char :=
  if line.getLast? = some '\r' then line.dropLast else line

/-- Lines whose line feeds end them.  A carriage return before a line feed
belongs to the ending, and nothing after the last line feed is no line. -/
def endedLines : List (List Char) → List (List Char)
  | [] => []
  | [last] => if last = [] then [] else [last]
  | line :: next :: rest => withoutReturn line :: endedLines (next :: rest)

variable {line count : Nat} {text : List Char} {texts : List (List Char)}
  {lexError : LexError} {tokens : List Token} {source : String}

/-! ## Further down -/

theorem Lexeme.tokens_movedDown (line count : Nat) (mnemonicSeen : Bool)
    (lexemes : List Lexeme) :
    Lexeme.tokens (line + count) mnemonicSeen lexemes =
      readingMovedDown count (Lexeme.tokens line mnemonicSeen lexemes) := by
  induction lexemes generalizing mnemonicSeen with
  | nil => rfl
  | cons lexeme lexemes inductionHypothesis =>
      rw [tokens, tokens]
      cases lexeme.tokenKind mnemonicSeen with
      | error fault => rfl
      | ok kind =>
          dsimp only
          rw [inductionHypothesis]
          cases tokens line (mnemonicSeen || lexeme.isWord) lexemes with
          | error lexError => rfl
          | ok more => rfl

theorem tokensOfLine_movedDown (line count : Nat) (text : List Char) :
    tokensOfLine (line + count) text =
      readingMovedDown count (tokensOfLine line text) :=
  Lexeme.tokens_movedDown line count false _

theorem tokensOfLines_movedDown (line count : Nat)
    (texts : List (List Char)) :
    tokensOfLines (line + count) texts =
      readingMovedDown count (tokensOfLines line texts) := by
  induction texts generalizing line with
  | nil => rfl
  | cons text texts inductionHypothesis =>
      rw [tokensOfLines, tokensOfLines, tokensOfLine_movedDown,
        Nat.add_right_comm, inductionHypothesis]
      cases tokensOfLine line text with
      | error lexError => rfl
      | ok tokens =>
          cases tokensOfLines (line + 1) texts with
          | error lexError => rfl
          | ok more =>
              dsimp only [readingMovedDown]
              rw [List.map_append]

/-! ## One after the other -/

theorem tokensOfLines_append (line : Nat) (first second : List (List Char)) :
    tokensOfLines line (first ++ second) =
      match tokensOfLines line first with
      | .error lexError => .error lexError
      | .ok tokens =>
          match tokensOfLines (line + first.length) second with
          | .error lexError => .error lexError
          | .ok more => .ok (tokens ++ more) := by
  induction first generalizing line with
  | nil =>
      show tokensOfLines line second = _
      dsimp only [tokensOfLines, List.length_nil, Nat.add_zero]
      cases tokensOfLines line second with
      | error lexError => rfl
      | ok more => rfl
  | cons text first inductionHypothesis =>
      rw [List.cons_append, tokensOfLines, tokensOfLines, inductionHypothesis,
        List.length_cons, Nat.add_right_comm line 1, Nat.add_assoc]
      cases tokensOfLine line text with
      | error lexError => rfl
      | ok tokens =>
          cases tokensOfLines (line + 1) first with
          | error lexError => rfl
          | ok more =>
              dsimp only
              cases tokensOfLines (line + (first.length + 1)) second with
              | error lexError => rfl
              | ok others =>
                  dsimp only
                  rw [List.append_assoc]

/-- The fault of lines is that of the first line that has one by itself. -/
theorem tokensOfLines_eq_error_iff :
    tokensOfLines (1 + count) texts = .error lexError ↔
      ∃ before text after, texts = before ++ text :: after ∧
        (∀ earlier ∈ before, ∃ tokens, tokensOfLine 1 earlier = .ok tokens) ∧
        ∃ own, tokensOfLine 1 text = .error own ∧
          lexError = own.moveDown (count + before.length) := by
  induction texts generalizing count with
  | nil => simp [tokensOfLines]
  | cons text texts inductionHypothesis =>
      rw [exists_cut_cons_iff, tokensOfLines, tokensOfLine_movedDown]
      cases reads : tokensOfLine 1 text with
      | error own =>
          dsimp only [readingMovedDown]
          constructor
          · intro fails
            cases fails
            exact .inl ⟨by simp, own, rfl, rfl⟩
          · intro first
            rcases first with ⟨_, other, same, moved⟩ | ⟨_, _, _, _, fine, _⟩
            · cases same
              rw [moved]
              rfl
            · obtain ⟨tokens, readsText⟩ := fine text (by simp)
              rw [reads] at readsText
              contradiction
      | ok tokens =>
          have others := @inductionHypothesis (count + 1)
          rw [← Nat.add_assoc] at others
          dsimp only [readingMovedDown]
          have skipped : (∃ before found after,
              texts = before ++ found :: after ∧
              (∀ earlier ∈ text :: before,
                ∃ tokens, tokensOfLine 1 earlier = .ok tokens) ∧
              ∃ own, tokensOfLine 1 found = .error own ∧
                lexError = own.moveDown (count + (text :: before).length)) ↔
              tokensOfLines (1 + count + 1) texts = .error lexError := by
            rw [others]
            simp only [List.forall_mem_cons, reads, List.length_cons,
              Except.ok.injEq, exists_eq', true_and, Nat.add_assoc,
              Nat.add_comm 1]
          rw [skipped]
          cases rest : tokensOfLines (1 + count + 1) texts with
          | error restError => simp
          | ok more => simp

/-- Lines that all have tokens by themselves have these tokens together. -/
theorem tokensOfLines_eq_ok_iff_parts :
    tokensOfLines (1 + count) texts = .ok tokens ↔
      ∃ parts,
        List.Forall₂ (fun text part => tokensOfLine 1 text = .ok part) texts
          parts ∧
        tokens = (parts.zipIdx count).flatMap
          (fun place => place.1.map (Token.moveDown place.2)) := by
  induction texts generalizing count tokens with
  | nil => simp [tokensOfLines, eq_comm]
  | cons text texts inductionHypothesis =>
      rw [tokensOfLines, tokensOfLine_movedDown]
      cases reads : tokensOfLine 1 text with
      | error own =>
          simp [readingMovedDown, List.forall₂_cons_left_iff, reads]
      | ok part =>
          dsimp only [readingMovedDown]
          rw [Nat.add_assoc]
          constructor
          · intro joined
            cases rest : tokensOfLines (1 + (count + 1)) texts with
            | error restError => simp [rest] at joined
            | ok more =>
                rw [rest] at joined
                cases joined
                obtain ⟨parts, alike, rfl⟩ := inductionHypothesis.mp rest
                refine ⟨part :: parts, .cons reads alike, ?_⟩
                rw [List.zipIdx_cons, List.flatMap_cons]
          · intro parted
            obtain ⟨parts, alike, joined⟩ := parted
            cases alike with
            | cons readsFirst alike =>
                cases reads.symm.trans readsFirst
                rw [joined, inductionHypothesis.mpr ⟨_, alike, rfl⟩,
                  List.zipIdx_cons, List.flatMap_cons]

/-! ## Texts -/

theorem length_linesOfText (text : List Char) :
    (linesOfText text).length = text.count '\n' + 1 := by
  induction text with
  | nil => rfl
  | cons character rest inductionHypothesis =>
      by_cases ends : character = '\n'
      · rw [ends, linesOfText_newline, List.length_cons, inductionHypothesis,
          List.count_cons_self]
      · obtain ⟨line, lines, cut⟩ :=
          List.exists_cons_of_ne_nil (linesOfText_ne_nil rest)
        rw [cut] at inductionHypothesis
        rw [linesOfText_cons ends cut, List.count_cons_of_ne ends]
        exact inductionHypothesis

/-- A text without a line break is read as its only line. -/
theorem lex_of_not_mem (unbroken : '\n' ∉ text) :
    lex (String.ofList text) = tokensOfLine 1 text := by
  rw [lex, String.toList_ofList, linesOfText_of_not_mem unbroken,
    tokensOfLines]
  cases tokensOfLine 1 text with
  | error lexError => rfl
  | ok tokens =>
      dsimp only [tokensOfLines]
      rw [List.append_nil]

theorem lex_append (first second : String) :
    lex (first ++ "\n" ++ second) =
      match lex first with
      | .error lexError => .error lexError
      | .ok tokens =>
          match readingMovedDown (first.toList.count '\n' + 1)
              (lex second) with
          | .error lexError => .error lexError
          | .ok more => .ok (tokens ++ more) := by
  have cut : linesOfText (first ++ "\n" ++ second).toList =
      linesOfText first.toList ++ linesOfText second.toList := by
    rw [String.toList_append, String.toList_append, List.append_assoc]
    exact linesOfText_append _ _
  unfold lex
  rw [cut, tokensOfLines_append, length_linesOfText, tokensOfLines_movedDown]

/-! ## Line endings -/

/-- A separator at the end of a line is read as nothing, also in a comment. -/
theorem tokensOfLine_append_separator {separator : Char}
    (separates : isSeparator separator = true) (line : Nat)
    (text : List Char) :
    tokensOfLine line (text ++ [separator]) = tokensOfLine line text := by
  have written : Lexeme.Written (codeOfLine text)
      (Lexeme.split (codeOfLine text)) := Lexeme.split_eq_iff.mp rfl
  have code : Lexeme.Written (codeOfLine (text ++ [separator]))
      (Lexeme.split (codeOfLine text)) := by
    by_cases whole : (codeOfLine text).length = text.length
    · have uncommented : codeOfLine [separator] = [separator] := by
        refine codeOfLine_of_not_mem fun comment => ?_
        rw [← List.mem_singleton.mp comment] at separates
        contradiction
      have sameText : codeOfLine text = text :=
        (List.takeWhile_prefix _).eq_of_length whole
      rw [codeOfLine, List.takeWhile_append, ← codeOfLine, if_pos whole,
        ← codeOfLine, uncommented]
      rw [sameText] at written ⊢
      have longer := written.append (.separator separates .nil) (by simpa)
      rw [List.append_nil] at longer
      exact longer
    · rw [codeOfLine, List.takeWhile_append, ← codeOfLine, if_neg whole]
      exact written
  unfold tokensOfLine
  rw [Lexeme.split_eq_iff.mpr code]

theorem tokensOfLine_withoutReturn (line : Nat) (text : List Char) :
    tokensOfLine line (withoutReturn text) = tokensOfLine line text := by
  unfold withoutReturn
  by_cases ends : text.getLast? = some '\r'
  · rw [if_pos ends]
    obtain ⟨before, rfl⟩ := List.getLast?_eq_some_iff.mp ends
    rw [List.dropLast_concat, tokensOfLine_append_separator rfl]
  · rw [if_neg ends]

/-- Lines are read alike with and without their endings. -/
theorem tokensOfLines_endedLines (line : Nat) (texts : List (List Char)) :
    tokensOfLines line (endedLines texts) = tokensOfLines line texts := by
  fun_induction endedLines texts generalizing line with
  | case1 => rfl
  | case2 =>
      have empty : Lexeme.Written (codeOfLine []) [] := .nil
      simp only [tokensOfLines, tokensOfLine, Lexeme.split_eq_iff.mpr empty]
      rfl
  | case3 last some => rfl
  | case4 text next rest inductionHypothesis =>
      rw [tokensOfLines, tokensOfLines, tokensOfLine_withoutReturn,
        inductionHypothesis]

/-- **Line by line.**  Two texts joined by a line break are read one after the
other, the second from the line on that it starts on.  So the fault of a text
is that of its first line that is refused by itself, and where no line is, the
tokens of a text are those of its lines.  The line endings of a text may be
taken away before it is read. -/
theorem lex_by_lines :
    (∀ first second : String,
      lex (first ++ "\n" ++ second) =
        match lex first with
        | .error lexError => .error lexError
        | .ok tokens =>
            match lex second with
            | .error lexError =>
                .error (lexError.moveDown (1 + first.toList.count '\n'))
            | .ok more =>
                .ok (tokens ++
                  more.map (Token.moveDown (1 + first.toList.count '\n')))) ∧
    (∀ (source : String) (lexError : LexError),
      lex source = .error lexError ↔
        ∃ before line after,
          linesOfText source.toList = before ++ line :: after ∧
          (∀ earlier ∈ before,
            ∃ tokens, lex (String.ofList earlier) = .ok tokens) ∧
          ∃ own, lex (String.ofList line) = .error own ∧
            lexError = own.moveDown before.length) ∧
    (∀ (source : String) (tokens : List Token),
      lex source = .ok tokens ↔
        ∃ parts,
          List.Forall₂ (fun line part => lex (String.ofList line) = .ok part)
            (linesOfText source.toList) parts ∧
          tokens = parts.zipIdx.flatMap
            (fun place => place.1.map (Token.moveDown place.2))) ∧
    ∀ source : String,
      lex source = tokensOfLines 1 (endedLines (linesOfText source.toList)) := by
  have alone : ∀ (source : String), ∀ line ∈ linesOfText source.toList,
      lex (String.ofList line) = tokensOfLine 1 line :=
    fun source line among =>
      lex_of_not_mem (newline_not_mem_linesOfText source.toList line among)
  refine ⟨?_, ?_, ?_, ?_⟩
  · intro first second
    rw [lex_append, Nat.add_comm 1]
    cases lex first with
    | error lexError => rfl
    | ok tokens => cases lex second <;> rfl
  · intro source lexError
    have first := @tokensOfLines_eq_error_iff 0 (linesOfText source.toList)
      lexError
    rw [lex, first]
    refine exists_congr fun before => exists_congr fun line =>
      exists_congr fun after => and_congr_right fun cut => ?_
    have among : ∀ other ∈ before ++ [line],
        lex (String.ofList other) = tokensOfLine 1 other := by
      intro other member
      refine alone source other ?_
      rw [cut, ← List.singleton_append, ← List.append_assoc]
      exact List.mem_append_left _ member
    rw [among line (by simp), Nat.zero_add]
    refine and_congr_left' (forall₂_congr fun earlier member => ?_)
    rw [among earlier (List.mem_append_left _ member)]
  · intro source tokens
    have parted := @tokensOfLines_eq_ok_iff_parts 0
      (linesOfText source.toList) tokens
    rw [lex, parted]
    refine exists_congr fun parts => and_congr_left' ?_
    refine forall₂_congr_of_mem fun line member part => ?_
    rw [alone source line member]
  · intro source
    rw [tokensOfLines_endedLines]
    rfl

end MiniMips
