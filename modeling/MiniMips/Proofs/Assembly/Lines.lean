import MiniMips.Assembly.Lexing

/-!
Contract: the lines of a text.

Owns:
- that no line holds a line break, and that lines joined or ended by line
  breaks are cut into the same lines again;
- that a line is code up to its comment mark.
-/

namespace MiniMips

theorem linesOfText_newline (rest : List Char) :
    linesOfText ('\n' :: rest) = [] :: linesOfText rest := rfl

theorem linesOfText_cons {character : Char} {rest line : List Char}
    {lines : List (List Char)} (inLine : character ≠ '\n')
    (cut : linesOfText rest = line :: lines) :
    linesOfText (character :: rest) = (character :: line) :: lines := by
  unfold linesOfText at cut ⊢
  rw [List.foldr_cons, cut, if_neg inLine]

theorem linesOfText_ne_nil (text : List Char) : linesOfText text ≠ [] := by
  induction text with
  | nil => exact List.cons_ne_nil _ _
  | cons character rest inductionHypothesis =>
      by_cases ends : character = '\n'
      · rw [ends, linesOfText_newline]
        exact List.cons_ne_nil _ _
      · obtain ⟨line, lines, cut⟩ :=
          List.exists_cons_of_ne_nil inductionHypothesis
        rw [linesOfText_cons ends cut]
        exact List.cons_ne_nil _ _

/-- A line break ends the last line of what is before it. -/
theorem linesOfText_append (first rest : List Char) :
    linesOfText (first ++ '\n' :: rest) =
      linesOfText first ++ linesOfText rest := by
  induction first with
  | nil => rfl
  | cons character first inductionHypothesis =>
      rw [List.cons_append]
      by_cases ends : character = '\n'
      · rw [ends, linesOfText_newline, linesOfText_newline,
          inductionHypothesis, List.cons_append]
      · obtain ⟨line, lines, cut⟩ :=
          List.exists_cons_of_ne_nil (linesOfText_ne_nil first)
        rw [cut] at inductionHypothesis
        rw [linesOfText_cons ends cut,
          linesOfText_cons ends inductionHypothesis]
        rfl

theorem linesOfText_of_not_mem {line : List Char} (unbroken : '\n' ∉ line) :
    linesOfText line = [line] := by
  induction line with
  | nil => rfl
  | cons character line inductionHypothesis =>
      rw [List.mem_cons, not_or] at unbroken
      exact linesOfText_cons (Ne.symm unbroken.1)
        (inductionHypothesis unbroken.2)

/-- Lines that are each ended by a line break are cut into the same lines
again, with an empty one behind the last line break. -/
theorem linesOfText_flatMap_newline {lines : List (List Char)}
    (unbroken : ∀ line ∈ lines, '\n' ∉ line) :
    linesOfText (lines.flatMap (· ++ ['\n'])) = lines ++ [[]] := by
  induction lines with
  | nil => rfl
  | cons line lines inductionHypothesis =>
      obtain ⟨unbrokenFirst, unbrokenOthers⟩ :=
        List.forall_mem_cons.mp unbroken
      rw [List.flatMap_cons, List.append_assoc, List.singleton_append,
        linesOfText_append, linesOfText_of_not_mem unbrokenFirst,
        inductionHypothesis unbrokenOthers]
      rfl

theorem newline_not_mem_linesOfText (text : List Char) :
    ∀ line ∈ linesOfText text, '\n' ∉ line := by
  induction text with
  | nil => simp [linesOfText]
  | cons character rest inductionHypothesis =>
      by_cases ends : character = '\n'
      · rw [ends, linesOfText_newline]
        exact List.forall_mem_cons.mpr ⟨List.not_mem_nil, inductionHypothesis⟩
      · obtain ⟨line, lines, cut⟩ :=
          List.exists_cons_of_ne_nil (linesOfText_ne_nil rest)
        rw [cut] at inductionHypothesis
        obtain ⟨first, others⟩ := List.forall_mem_cons.mp inductionHypothesis
        rw [linesOfText_cons ends cut]
        refine List.forall_mem_cons.mpr ⟨?_, others⟩
        rw [List.mem_cons, not_or]
        exact ⟨Ne.symm ends, first⟩

/-- **Lines.**  Lines that are joined by line breaks are cut into the same
lines again. -/
theorem linesOfText_intercalate {lines : List (List Char)}
    (some : lines ≠ []) (unbroken : ∀ line ∈ lines, '\n' ∉ line) :
    linesOfText (['\n'].intercalate lines) = lines := by
  induction lines with
  | nil => exact absurd rfl some
  | cons line lines inductionHypothesis =>
      have first := linesOfText_of_not_mem (unbroken line (by simp))
      cases lines with
      | nil => simpa using first
      | cons next lines =>
          have others := inductionHypothesis (by simp)
            (fun other member => unbroken other (List.mem_cons_of_mem _ member))
          rw [List.intercalate_cons_cons, List.append_assoc,
            List.singleton_append, linesOfText_append, first, others]
          rfl

/-- What stands before the comment mark of a line belongs to its code. -/
theorem codeOfLine_append {front : List Char} (uncommented : '#' ∉ front)
    (back : List Char) : codeOfLine (front ++ back) = front ++ codeOfLine back := by
  refine List.takeWhile_append_of_pos fun character member => ?_
  rw [bne_iff_ne]
  rintro rfl
  exact uncommented member

theorem codeOfLine_of_not_mem {line : List Char} (uncommented : '#' ∉ line) :
    codeOfLine line = line := by
  have code := codeOfLine_append uncommented []
  rw [List.append_nil] at code
  exact code.trans (List.append_nil line)

/-- A comment is no code. -/
theorem codeOfLine_comment {comment : List Char}
    (commented : ∀ first ∈ comment.head?, first = '#') :
    codeOfLine comment = [] := by
  cases comment with
  | nil => rfl
  | cons first rest =>
      rw [commented first rfl]
      rfl

end MiniMips
