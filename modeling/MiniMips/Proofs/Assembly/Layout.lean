import MiniMips.Proofs.Assembly.LineByLine
import MiniMips.Proofs.Assembly.LineNumbers
import MiniMips.Proofs.Assembly.Tokens

/-!
Contract: the layout of a source in lines.

Owns:
- the strips of a source: the labels that begin a line, each by itself, and
  what is left of the line;
- that sources with the same strips are assembled to the same but for the
  numbers of lines, wherever their lines end;
- lines without code, and labels on a line of their own.
-/

namespace MiniMips

/-- Lexemes that are read by themselves on their line. -/
structure Strip where
  line : Nat
  lexemes : List Lexeme

/-- Cut the labels that begin a line off. -/
def Lexeme.strips : List Lexeme → List (List Lexeme)
  | [] => []
  | .label name :: rest => [.label name] :: strips rest
  | lexemes => [lexemes]

def stripsOfLine (text : List Char) : List (List Lexeme) :=
  Lexeme.strips (Lexeme.split (codeOfLine text))

/-- The strips of consecutive lines, the first of which is numbered `line`. -/
def stripsOfLines (line : Nat) : List (List Char) → List Strip
  | [] => []
  | text :: rest =>
      (stripsOfLine text).map (Strip.mk line) ++ stripsOfLines (line + 1) rest

def tokensOfStrips : List Strip → Except LexError (List Token)
  | [] => .ok []
  | strip :: rest =>
      match Lexeme.tokens strip.line false strip.lexemes with
      | .error lexError => .error lexError
      | .ok tokens =>
          match tokensOfStrips rest with
          | .error lexError => .error lexError
          | .ok more => .ok (tokens ++ more)

/-- Nothing but a label is followed by another strip on its line. -/
def Strip.Apart (strip other : Strip) : Prop :=
  strip.line = other.line → ∃ name, strip.lexemes = [.label name]

def LexError.withoutLine (lexError : LexError) : LexError :=
  { lexError with line := 0 }

def AssemblyError.withoutLine : AssemblyError → AssemblyError
  | .lex lexError => .lex lexError.withoutLine
  | .parse parseError => .parse parseError.withoutLine

def Assembled.withoutLines (assembled : Assembled) : Assembled where
  tokens := assembled.tokens.map Token.withoutLine
  program := assembled.program.withoutLines

/-- What becomes of a source, but for the numbers of lines. -/
def assembleWithoutLines (source : String) :
    Except AssemblyError Assembled :=
  ((assemble source).map Assembled.withoutLines).mapError
    AssemblyError.withoutLine

variable {line : Nat} {text : List Char} {texts : List (List Char)}
  {strip : Strip} {strips others : List Strip}
  {tokens seen otherSeen : List Token}

/-! ## Strips of a source -/

theorem tokensOfStrips_append (first second : List Strip) :
    tokensOfStrips (first ++ second) =
      match tokensOfStrips first with
      | .error lexError => .error lexError
      | .ok tokens =>
          match tokensOfStrips second with
          | .error lexError => .error lexError
          | .ok more => .ok (tokens ++ more) := by
  induction first with
  | nil =>
      show tokensOfStrips second = _
      dsimp only [tokensOfStrips]
      cases tokensOfStrips second <;> rfl
  | cons strip first inductionHypothesis =>
      rw [List.cons_append, tokensOfStrips, tokensOfStrips,
        inductionHypothesis]
      cases Lexeme.tokens strip.line false strip.lexemes with
      | error lexError => rfl
      | ok tokens =>
          cases tokensOfStrips first with
          | error lexError => rfl
          | ok more =>
              dsimp only
              cases tokensOfStrips second with
              | error lexError => rfl
              | ok others =>
                  dsimp only
                  rw [List.append_assoc]

/-- Labels that begin a line do not influence what follows them. -/
theorem tokensOfStrips_strips (line : Nat) (lexemes : List Lexeme) :
    tokensOfStrips ((Lexeme.strips lexemes).map (Strip.mk line)) =
      Lexeme.tokens line false lexemes := by
  fun_induction Lexeme.strips lexemes with
  | case1 => rfl
  | case2 name rest inductionHypothesis =>
      rw [List.map_cons, tokensOfStrips, inductionHypothesis]
      rfl
  | case3 lexemes =>
      rw [List.map_singleton, tokensOfStrips]
      dsimp only [tokensOfStrips]
      cases Lexeme.tokens line false lexemes with
      | error lexError => rfl
      | ok tokens =>
          dsimp only
          rw [List.append_nil]

theorem tokensOfStrips_stripsOfLines (line : Nat)
    (texts : List (List Char)) :
    tokensOfStrips (stripsOfLines line texts) = tokensOfLines line texts := by
  induction texts generalizing line with
  | nil => rfl
  | cons text texts inductionHypothesis =>
      rw [stripsOfLines, tokensOfStrips_append, inductionHypothesis,
        stripsOfLine, tokensOfStrips_strips]
      rfl

theorem map_lexemes_stripsOfLines (line : Nat) (texts : List (List Char)) :
    (stripsOfLines line texts).map Strip.lexemes =
      texts.flatMap stripsOfLine := by
  induction texts generalizing line with
  | nil => rfl
  | cons text texts inductionHypothesis =>
      rw [stripsOfLines, List.map_append, inductionHypothesis,
        List.map_map, List.flatMap_cons]
      exact congrArg (· ++ texts.flatMap stripsOfLine) (List.map_id _)

theorem pairwise_apart_strips (line : Nat) (lexemes : List Lexeme) :
    ((Lexeme.strips lexemes).map (Strip.mk line)).Pairwise Strip.Apart := by
  fun_induction Lexeme.strips lexemes with
  | case1 => exact .nil
  | case2 name rest inductionHypothesis =>
      exact .cons (fun _ _ _ => ⟨name, rfl⟩) inductionHypothesis
  | case3 lexemes => exact List.pairwise_singleton _ _

theorem le_line_of_mem_stripsOfLines
    (member : strip ∈ stripsOfLines line texts) : line ≤ strip.line := by
  induction texts generalizing line with
  | nil => cases member
  | cons text texts inductionHypothesis =>
      rcases List.mem_append.mp member with onLine | further
      · obtain ⟨lexemes, _, rfl⟩ := List.mem_map.mp onLine
        exact Nat.le_refl line
      · exact Nat.le_of_succ_le (inductionHypothesis further)

theorem pairwise_apart_stripsOfLines (line : Nat)
    (texts : List (List Char)) :
    (stripsOfLines line texts).Pairwise Strip.Apart := by
  induction texts generalizing line with
  | nil => exact .nil
  | cons text texts inductionHypothesis =>
      refine List.pairwise_append.mpr ⟨pairwise_apart_strips line _,
        inductionHypothesis (line + 1), ?_⟩
      intro strip onLine other further sameLine
      obtain ⟨lexemes, _, rfl⟩ := List.mem_map.mp onLine
      have below := le_line_of_mem_stripsOfLines further
      rw [← sameLine] at below
      exact absurd below (Nat.not_succ_le_self line)

/-! ## Reading strips -/

/-- Lexemes are read alike on every line. -/
theorem Lexeme.tokens_alike (line otherLine : Nat) (lexemes : List Lexeme) :
    AlikeOutcomes
      (fun lexError other => lexError.withoutLine = other.withoutLine)
      (fun tokens others =>
        tokens.map Token.withoutLine = others.map Token.withoutLine)
      (Lexeme.tokens line false lexemes)
      (Lexeme.tokens otherLine false lexemes) := by
  have moved : ∀ line, Lexeme.tokens line false lexemes =
      readingMovedDown line (Lexeme.tokens 0 false lexemes) := by
    intro line
    have fromTop := Lexeme.tokens_movedDown 0 line false lexemes
    rwa [Nat.zero_add] at fromTop
  rw [moved line, moved otherLine]
  cases Lexeme.tokens 0 false lexemes with
  | error lexError => exact .error rfl
  | ok tokens =>
      refine .ok ?_
      rw [List.map_map, List.map_map]
      rfl

theorem Strip.Apart.line_ne {other : Strip} {token : Token}
    (apart : strip.Apart other)
    (reads : Lexeme.tokens strip.line false strip.lexemes = .ok tokens)
    (member : token ∈ tokens) (isMnemonic : token.isMnemonic = true) :
    token.line ≠ other.line := by
  have onLine := (Lexeme.tokens_eq_ok_iff.mp reads).line_eq token member
  intro sameLine
  obtain ⟨name, label⟩ := apart (onLine.symm.trans sameLine)
  rw [label] at reads
  cases reads
  obtain rfl := List.mem_singleton.mp member
  contradiction

/-- What was read before strips.  It is the same but for its lines, and none of
it takes operands from the strips. -/
structure ReadAlike (seen otherSeen : List Token)
    (strips others : List Strip) : Prop where
  words : seen.map Token.withoutLine = otherSeen.map Token.withoutLine
  grouping : Token.SameGrouping seen otherSeen
  apart : ∀ strip ∈ strips, ∀ token ∈ seen, token.isMnemonic = true →
    token.line ≠ strip.line
  otherApart : ∀ strip ∈ others, ∀ token ∈ otherSeen,
    token.isMnemonic = true → token.line ≠ strip.line

theorem readAlike_nil (strips others : List Strip) :
    ReadAlike [] [] strips others :=
  ⟨rfl, Token.sameGrouping_nil, by simp, by simp⟩

/-- Reading one strip more. -/
theorem ReadAlike.step {other : Strip} {more : List Token}
    (alike : ReadAlike seen otherSeen (strip :: strips) (other :: others))
    (apart : ∀ next ∈ strips, strip.Apart next)
    (otherApart : ∀ next ∈ others, other.Apart next)
    (reads : Lexeme.tokens strip.line false strip.lexemes = .ok tokens)
    (otherReads : Lexeme.tokens other.line false other.lexemes = .ok more)
    (same : tokens.map Token.withoutLine = more.map Token.withoutLine) :
    ReadAlike (seen ++ tokens) (otherSeen ++ more) strips others := by
  have onLine := (Lexeme.tokens_eq_ok_iff.mp reads).line_eq
  have otherOnLine := (Lexeme.tokens_eq_ok_iff.mp otherReads).line_eq
  refine ⟨?_, ?_, ?_, ?_⟩
  · rw [List.map_append, List.map_append, alike.words, same]
  · exact alike.grouping.append_line alike.words same onLine otherOnLine
      (alike.apart strip (by simp)) (alike.otherApart other (by simp))
  · intro next among token member isMnemonic
    rcases List.mem_append.mp member with inSeen | inStrip
    · exact alike.apart next (List.mem_cons_of_mem _ among) token inSeen
        isMnemonic
    · exact (apart next among).line_ne reads inStrip isMnemonic
  · intro next among token member isMnemonic
    rcases List.mem_append.mp member with inSeen | inStrip
    · exact alike.otherApart next (List.mem_cons_of_mem _ among) token inSeen
        isMnemonic
    · exact (otherApart next among).line_ne otherReads inStrip isMnemonic

/-- Reading strips to the end. -/
theorem ReadAlike.run
    (alike : ReadAlike seen otherSeen strips others)
    (same : strips.map Strip.lexemes = others.map Strip.lexemes)
    (apart : strips.Pairwise Strip.Apart)
    (otherApart : others.Pairwise Strip.Apart) :
    AlikeOutcomes
      (fun lexError other => lexError.withoutLine = other.withoutLine)
      (fun tokens more => ReadAlike (seen ++ tokens) (otherSeen ++ more) [] [])
      (tokensOfStrips strips) (tokensOfStrips others) := by
  induction strips generalizing others seen otherSeen with
  | nil =>
      obtain rfl := List.map_eq_nil_iff.mp same.symm
      refine .ok ?_
      rw [List.append_nil, List.append_nil]
      exact alike
  | cons strip strips inductionHypothesis =>
      obtain ⟨other, others, rfl, sameLexemes, sameRest⟩ :=
        List.map_eq_cons_iff.mp same.symm
      obtain ⟨apartFirst, apart⟩ := List.pairwise_cons.mp apart
      obtain ⟨otherApartFirst, otherApart⟩ :=
        List.pairwise_cons.mp otherApart
      have first :=
        Lexeme.tokens_alike strip.line other.line strip.lexemes
      rcases first.error_or_ok with
        ⟨_, _, fails, failsToo, sameError⟩ |
        ⟨tokens, more, reads, otherReads, sameWords⟩
      · rw [← sameLexemes] at failsToo
        simp only [tokensOfStrips, fails, failsToo]
        exact .error sameError
      · rw [← sameLexemes] at otherReads
        have further := inductionHypothesis
          (alike.step apartFirst otherApartFirst reads otherReads sameWords)
          sameRest.symm apart otherApart
        rcases further.error_or_ok with
          ⟨_, _, fails, failsToo, sameError⟩ |
          ⟨_, _, readsRest, otherReadsRest, alikeRest⟩
        · simp only [tokensOfStrips, reads, otherReads, fails, failsToo]
          exact .error sameError
        · simp only [tokensOfStrips, reads, otherReads, readsRest,
            otherReadsRest]
          rw [List.append_assoc, List.append_assoc] at alikeRest
          exact .ok alikeRest

/-- What becomes of a source that has been read depends on its tokens and on
what becomes of them. -/
theorem assembleWithoutLines_of_lex {source : String}
    (reads : lex source = .ok tokens) :
    assembleWithoutLines source =
      ((Program.outcomeWithoutLines tokens).map
        (Assembled.mk (tokens.map Token.withoutLine))).mapError
          AssemblyError.parse := by
  unfold assembleWithoutLines assemble Program.outcomeWithoutLines
  rw [reads]
  dsimp only
  cases Program.ofTokens tokens <;> rfl

/-- Sources with the same strips are assembled alike. -/
theorem assembleWithoutLines_eq {source other : String}
    (same : (linesOfText source.toList).flatMap stripsOfLine =
      (linesOfText other.toList).flatMap stripsOfLine) :
    assembleWithoutLines source = assembleWithoutLines other := by
  rw [← map_lexemes_stripsOfLines 1, ← map_lexemes_stripsOfLines 1] at same
  have readings := (readAlike_nil _ _).run same
    (pairwise_apart_stripsOfLines 1 _) (pairwise_apart_stripsOfLines 1 _)
  rw [tokensOfStrips_stripsOfLines, tokensOfStrips_stripsOfLines] at readings
  rcases readings.error_or_ok with
    ⟨lexError, otherError, fails, failsToo, sameError⟩ |
    ⟨tokens, others, reads, otherReads, alike⟩
  · unfold assembleWithoutLines assemble lex
    rw [fails, failsToo]
    exact congrArg (Except.error ∘ AssemblyError.lex) sameError
  · have words : tokens.map Token.withoutLine = others.map Token.withoutLine :=
      alike.words
    have outcomes := Program.outcomeWithoutLines_eq words alike.grouping
    rw [assembleWithoutLines_of_lex reads,
      assembleWithoutLines_of_lex otherReads, words]
    exact congrArg _ (congrArg _ outcomes)

/-! ## Moving lines -/

/-- A line without code: nothing but separators stands before its comment. -/
def isBlank (text : List Char) : Bool :=
  (codeOfLine text).all isSeparator

theorem split_append_separators {indent : List Char}
    (separates : indent.all isSeparator = true) (rest : List Char) :
    Lexeme.split (indent ++ rest) = Lexeme.split rest := by
  have written : Lexeme.Written rest (Lexeme.split rest) :=
    Lexeme.split_eq_iff.mp rfl
  exact Lexeme.split_eq_iff.mpr (written.indented separates)

theorem stripsOfLine_of_isBlank (blank : isBlank text = true) :
    stripsOfLine text = [] := by
  rw [stripsOfLine, Lexeme.split_eq_iff.mpr (Lexeme.Written.blank blank)]
  rfl

theorem stripsOfLine_indented {indent : List Char}
    (separates : indent.all isSeparator = true) (text : List Char) :
    stripsOfLine (indent ++ text) = stripsOfLine text := by
  have uncommented : '#' ∉ indent := by
    intro member
    have separator := List.all_eq_true.mp separates '#' member
    contradiction
  rw [stripsOfLine, codeOfLine_append uncommented,
    split_append_separators separates]
  rfl

theorem stripsOfLine_label {name : List Char}
    (proper : isName name = true) (text : List Char) :
    stripsOfLine (name ++ ':' :: text) =
      [.label name] :: stripsOfLine text := by
  have uncommented : '#' ∉ name ++ [':'] := by
    intro member
    rcases List.mem_append.mp member with inName | isColon
    · have accepted := Lexeme.isNameCharacter_of_isName proper inName
      contradiction
    · simp at isColon
  have written : Lexeme.Written (name ++ [':'] ++ codeOfLine text)
      (.label name :: Lexeme.split (codeOfLine text)) :=
    @Lexeme.Written.lexeme (.label name) _ _ proper (fun _ _ => rfl)
      (Lexeme.split_eq_iff.mp rfl)
  have joined : name ++ ':' :: text = name ++ [':'] ++ text := by simp
  rw [joined, stripsOfLine, codeOfLine_append uncommented,
    Lexeme.split_eq_iff.mpr written]
  rfl

/-- **Line numbers.**  They do not influence what a token list is assembled to
or refused for, but through the question which operand tokens stand on the line
of their mnemonic.  They reappear as the lines of its instructions and labels.
In a source, lines without code may stand anywhere, and a label may stand on a
line of its own or before the code of a later line. -/
theorem line_numbers_only_group :
    (∀ tokens others : List Token,
      tokens.map Token.withoutLine = others.map Token.withoutLine →
      Token.SameGrouping tokens others →
      Program.outcomeWithoutLines tokens =
        Program.outcomeWithoutLines others) ∧
    (∀ (tokens : List Token) (program : Program),
      Program.ofTokens tokens = .ok program →
      program.instructions.toList.map Instruction.line =
          (tokens.filter Token.isMnemonic).map Token.line ∧
        program.labels.entries.map LabelEntry.line =
          (tokens.filter Token.isLabel).map Token.line) ∧
    (∀ (source other : String) (before after : List (List Char))
        (blank : List Char),
      linesOfText source.toList = before ++ after →
      linesOfText other.toList = before ++ blank :: after →
      isBlank blank = true →
      assembleWithoutLines source = assembleWithoutLines other) ∧
    ∀ (source other : String) (before between after : List (List Char))
        (indent otherIndent name blank code : List Char),
      linesOfText source.toList =
        before ++ (indent ++ (name ++ ':' :: blank)) ::
          (between ++ code :: after) →
      linesOfText other.toList =
        before ++ (between ++ (otherIndent ++ (name ++ ':' :: code)) ::
          after) →
      indent.all isSeparator = true →
      otherIndent.all isSeparator = true →
      isName name = true →
      isBlank blank = true →
      (∀ line ∈ between, isBlank line = true) →
      assembleWithoutLines source = assembleWithoutLines other := by
  refine ⟨fun _ _ => Program.outcomeWithoutLines_eq,
    fun _ _ => Program.lines_of_ofTokens, ?_, ?_⟩
  · intro source other before after blank lines otherLines withoutCode
    apply assembleWithoutLines_eq
    rw [lines, otherLines, List.flatMap_append, List.flatMap_append,
      List.flatMap_cons, stripsOfLine_of_isBlank withoutCode,
      List.nil_append]
  · intro source other before between after indent otherIndent name blank code
      lines otherLines separates otherSeparates proper withoutCode
      allWithoutCode
    have silent : between.flatMap stripsOfLine = [] :=
      List.flatMap_eq_nil_iff.mpr
        fun line among => stripsOfLine_of_isBlank (allWithoutCode line among)
    apply assembleWithoutLines_eq
    rw [lines, otherLines]
    simp only [List.flatMap_append, List.flatMap_cons, silent,
      stripsOfLine_indented separates, stripsOfLine_indented otherSeparates,
      stripsOfLine_label proper, stripsOfLine_of_isBlank withoutCode,
      List.nil_append, List.cons_append]

/-- Lines that do not count up, and a label that is moved past a comment. -/
theorem line_numbers_only_group_loop :
    let label (line : Nat) : List Token := [⟨.label "loop", "loop:", line⟩]
    let jump (line : Nat) : List Token :=
      [⟨.mnemonic "j", "j", line⟩, ⟨.symbol "loop", "loop", line⟩]
    Program.outcomeWithoutLines (label 8 ++ jump 3) =
        Program.outcomeWithoutLines (label 2 ++ jump 2) ∧
      ∃ assembled,
        assembleWithoutLines "loop:\n# again\n\tj loop" = .ok assembled ∧
        assembleWithoutLines "# again\n  loop:\tj loop" = .ok assembled ∧
        assembled.program.instructions =
          #[{ Instruction.bare .j 0 with label? := some "loop" }] := by
  intro label jump
  obtain ⟨byTokens, _, _, bySource⟩ := line_numbers_only_group
  have labelLine : ∀ line, ∀ token ∈ label line, token.line = line := by
    simp [label]
  have jumpLine : ∀ line, ∀ token ∈ jump line, token.line = line := by
    simp [jump]
  have labels : Token.SameGrouping ([] ++ label 8) ([] ++ label 2) :=
    Token.sameGrouping_nil.append_line rfl rfl (labelLine 8) (labelLine 2)
      (by simp) (by simp)
  have grouping : Token.SameGrouping (label 8 ++ jump 3) (label 2 ++ jump 2) :=
    labels.append_line rfl rfl (jumpLine 3) (jumpLine 2) (by simp [label])
      (by simp [label, Token.isMnemonic])
  have moved := bySource "loop:\n# again\n\tj loop" "# again\n  loop:\tj loop"
    [] ["# again".toList] [] [] "  ".toList "loop".toList [] "\tj loop".toList
    (by decide +kernel) (by decide +kernel) (by decide) (by decide) (by decide)
    (by decide) (by decide)
  let program : Program :=
    ⟨#[{ Instruction.bare .j 0 with label? := some "loop" }],
      ⟨[⟨"loop", 0, 0⟩]⟩⟩
  have assembles : assembleWithoutLines "loop:\n# again\n\tj loop" =
      .ok ⟨label 0 ++ jump 0, program⟩ := by
    decide +kernel
  exact ⟨byTokens _ _ rfl grouping, _, assembles, moved.symm.trans assembles,
    rfl⟩

end MiniMips
