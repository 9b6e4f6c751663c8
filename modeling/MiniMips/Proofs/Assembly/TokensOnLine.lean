import MiniMips.Proofs.Assembly.Tokens

/-!
Contract: the tokens of a text, by the lines on which they stand.

Owns:
- the tokens of a list that stand on a line;
- token lists in the order of their lines, and the cut after the first of these
  lines;
- that a text has certain tokens exactly where these are in the order of its
  lines and every line has those of them that stand on it.
-/

namespace MiniMips

namespace Token

/-- The tokens of a list that stand on a line. -/
def onLine (line : Nat) (tokens : List Token) : List Token :=
  tokens.filter (fun token => token.line == line)

/-- Tokens in the order of their lines, which are among the `count` lines from
`first` on. -/
structure InLines (first count : Nat) (tokens : List Token) : Prop where
  ordered : tokens.Pairwise (fun token next => token.line ≤ next.line)
  within : ∀ token ∈ tokens, first ≤ token.line ∧ token.line < first + count

variable {line first count : Nat} {token : Token} {tokens more : List Token}

theorem mem_onLine :
    token ∈ onLine line tokens ↔ token ∈ tokens ∧ token.line = line := by
  rw [onLine, List.mem_filter, beq_iff_eq]

theorem onLine_eq_self (same : ∀ token ∈ tokens, token.line = line) :
    onLine line tokens = tokens :=
  List.filter_eq_self.mpr
    (fun token member => beq_iff_eq.mpr (same token member))

theorem onLine_eq_nil (other : ∀ token ∈ tokens, token.line ≠ line) :
    onLine line tokens = [] :=
  List.filter_eq_nil_iff.mpr
    (fun token member same => other token member (beq_iff_eq.mp same))

theorem onLine_cons_self (token : Token) (tokens : List Token) :
    onLine token.line (token :: tokens) = token :: onLine token.line tokens :=
  List.filter_cons_of_pos (beq_self_eq_true token.line)

/-- What stands on a line is not found among tokens of another one. -/
theorem onLine_append_of_ne (same : ∀ token ∈ tokens, token.line = first)
    (other : first ≠ line) :
    onLine line (tokens ++ more) = onLine line more := by
  have apart : onLine line tokens = [] := by
    refine onLine_eq_nil fun token member => ?_
    rw [same token member]
    exact other
  rw [onLine, List.filter_append, ← onLine, ← onLine, apart, List.nil_append]

/-- Lines further down have their tokens behind those of the first line. -/
theorem onLine_further (same : ∀ token ∈ tokens, token.line = first)
    (place : Nat) :
    onLine (first + (place + 1)) (tokens ++ more) =
      onLine (first + 1 + place) more := by
  rw [onLine_append_of_ne same (by omega), Nat.add_assoc, Nat.add_comm 1]

/-! ## The first line -/

theorem InLines.onLine_first (same : ∀ token ∈ tokens, token.line = first)
    (others : InLines (first + 1) count more) :
    onLine first (tokens ++ more) = tokens := by
  have apart : onLine first more = [] := by
    refine onLine_eq_nil fun token member => ?_
    have bounds := others.within token member
    omega
  rw [onLine, List.filter_append, ← onLine, ← onLine, apart, List.append_nil,
    onLine_eq_self same]

/-- The tokens of one line, followed by those of the lines after it. -/
theorem InLines.of_first (same : ∀ token ∈ tokens, token.line = first)
    (others : InLines (first + 1) count more) :
    InLines first (count + 1) (tokens ++ more) where
  ordered := by
    refine List.pairwise_append.mpr ⟨?_, others.ordered, ?_⟩
    · apply List.pairwise_of_forall_mem_list
      intro token member next among
      exact Nat.le_of_eq ((same token member).trans (same next among).symm)
    · intro token member next among
      have bounds := others.within next among
      have onFirst := same token member
      omega
  within := by
    intro token member
    rcases List.mem_append.mp member with inFirst | inMore
    · have onFirst := same token inFirst
      omega
    · have bounds := others.within token inMore
      omega

theorem InLines.tail (inLines : InLines first count (token :: tokens)) :
    InLines first count tokens where
  ordered := (List.pairwise_cons.mp inLines.ordered).2
  within := (List.forall_mem_cons.mp inLines.within).2

/-- Tokens in the order of their lines are cut after those of the first
line. -/
theorem InLines.exists_cut (inLines : InLines first (count + 1) tokens) :
    ∃ part more, tokens = part ++ more ∧
      (∀ token ∈ part, token.line = first) ∧
      InLines (first + 1) count more := by
  induction tokens with
  | nil => exact ⟨[], [], rfl, by simp, .nil, by simp⟩
  | cons token tokens inductionHypothesis =>
      have bounds := inLines.within token (by simp)
      by_cases onFirst : token.line = first
      · obtain ⟨part, more, rfl, same, others⟩ :=
          inductionHypothesis inLines.tail
        exact ⟨token :: part, more, rfl,
          List.forall_mem_cons.mpr ⟨onFirst, same⟩, others⟩
      · refine ⟨[], token :: tokens, rfl, by simp, inLines.ordered, ?_⟩
        -- No later token stands on the first line if this one does not.
        intro next member
        have below := (inLines.within next member).2
        rcases List.mem_cons.mp member with rfl | behind
        · omega
        · have notBefore :=
            (List.pairwise_cons.mp inLines.ordered).1 next behind
          omega

end Token

/-! ## Texts -/

variable {first line : Nat} {text : List Char} {texts : List (List Char)}
  {tokens : List Token} {source : String}

theorem line_eq_of_tokensOfLine (reads : tokensOfLine line text = .ok tokens) :
    ∀ token ∈ tokens, token.line = line :=
  (Lexeme.tokens_eq_ok_iff.mp reads).line_eq

/-- Lines have certain tokens where these are in the order of the lines and
every line has those of them that stand on it. -/
theorem tokensOfLines_eq_ok_iff_onLine :
    tokensOfLines first texts = .ok tokens ↔
      Token.InLines first texts.length tokens ∧
        ∀ place text, texts[place]? = some text →
          tokensOfLine (first + place) text =
            .ok (Token.onLine (first + place) tokens) := by
  induction texts generalizing first tokens with
  | nil =>
      constructor
      · intro reads
        cases reads
        exact ⟨⟨.nil, by simp⟩, by simp⟩
      · rintro ⟨inLines, _⟩
        have none : tokens = [] := by
          refine List.eq_nil_iff_forall_not_mem.mpr fun token member => ?_
          have bounds := inLines.within token member
          simp only [List.length_nil] at bounds
          omega
        rw [none]
        rfl
  | cons text texts inductionHypothesis =>
      rw [tokensOfLines_cons_eq_ok_iff]
      constructor
      · rintro ⟨part, more, rfl, readsFirst, readsOthers⟩
        have same := line_eq_of_tokensOfLine readsFirst
        obtain ⟨inLines, each⟩ := inductionHypothesis.mp readsOthers
        refine ⟨.of_first same inLines, ?_⟩
        intro place line present
        cases place with
        | zero =>
            cases present
            rw [Nat.add_zero, inLines.onLine_first same]
            exact readsFirst
        | succ place =>
            rw [Token.onLine_further same, Nat.add_comm place, ← Nat.add_assoc]
            exact each place line present
      · rintro ⟨inLines, each⟩
        obtain ⟨part, more, rfl, same, others⟩ := inLines.exists_cut
        refine ⟨part, more, rfl, ?_, inductionHypothesis.mpr ⟨others, ?_⟩⟩
        · have reads := each 0 text rfl
          rw [Nat.add_zero, others.onLine_first same] at reads
          exact reads
        · intro place line present
          have reads := each (place + 1) line present
          rw [Token.onLine_further same, Nat.add_comm place,
            ← Nat.add_assoc] at reads
          exact reads

/-- A text has certain tokens where these are in the order of its lines and
every line has those of them that stand on it. -/
theorem lex_eq_ok_iff_onLine :
    lex source = .ok tokens ↔
      Token.InLines 1 (linesOfText source.toList).length tokens ∧
        ∀ place text, (linesOfText source.toList)[place]? = some text →
          tokensOfLine (1 + place) text =
            .ok (Token.onLine (1 + place) tokens) :=
  tokensOfLines_eq_ok_iff_onLine

/-- The lexemes of a line stand for the tokens on it.  A line that a text does
not have has neither. -/
theorem exists_standFor_of_lex (reads : lex source = .ok tokens) (line : Nat) :
    ∃ lexemes : List Lexeme, (∀ lexeme ∈ lexemes, lexeme.isProper = true) ∧
      Lexeme.StandFor line false lexemes (Token.onLine line tokens) := by
  obtain ⟨inLines, each⟩ := lex_eq_ok_iff_onLine.mp reads
  by_cases inside : 1 ≤ line ∧ line - 1 < (linesOfText source.toList).length
  · have readsLine := each (line - 1) _ (List.getElem?_eq_getElem inside.2)
    rw [Nat.add_sub_cancel' inside.1] at readsLine
    obtain ⟨lexemes, written, standFor⟩ := tokensOfLine_eq_ok_iff.mp readsLine
    exact ⟨lexemes, written.isProper, standFor⟩
  · have none : Token.onLine line tokens = [] := by
      refine Token.onLine_eq_nil fun token member => ?_
      have bounds := inLines.within token member
      omega
    rw [none]
    exact ⟨[], by simp, .nil⟩

end MiniMips
