import Mathlib.Data.List.Chain
import MiniMips.Json.Token
import MiniMips.Proofs.Json.Grammar
import MiniMips.Proofs.Json.Numbers
import MiniMips.Proofs.Json.Strings

/-!
Contract: reading the tokens of JSON documents.

Owns:
- which tokens may stand side by side without a blank;
- that a text is cut into such tokens exactly if it is a text of them.
-/

namespace MiniMips.Json.Token

def IsNumber : Token → Prop
  | .number _ => True
  | _ => False

/-- No two numbers stand side by side, where they could be one. -/
def Apart (tokens : List Token) : Prop :=
  tokens.IsChain (fun token next => ¬(IsNumber token ∧ IsNumber next))

variable {token : Token} {tokens : List Token} {gap text rest : List Char}

/-! ## What may follow a number -/

theorem Written.mayEnd (written : Written token text)
    (noNumber : ¬IsNumber token) (rest : List Char) :
    Number.MayEnd (text ++ rest) := by
  intro first member
  cases written with
  | number => exact absurd trivial noNumber
  | _ =>
      cases member
      rfl

theorem isBlank_of_gap (blanks : IsGap gap) {character : Char}
    (member : character ∈ gap) :
    isBlank character = true ∧ Number.continues character = false := by
  rcases blanks character member with rfl | rfl | rfl | rfl <;> decide

/-- A number may end before tokens the first of which is no number. -/
theorem Spaced.mayEnd (spaced : Spaced tokens text)
    (noNumber : ∀ next ∈ tokens.head?, ¬IsNumber next) :
    Number.MayEnd text := by
  cases spaced with
  | nil blanks =>
      intro first member
      exact (isBlank_of_gap blanks (List.mem_of_mem_head? member)).2
  | @cons token tokens gap text rest blanks first _ =>
      cases gap with
      | nil => exact first.mayEnd (noNumber token rfl) rest
      | cons blank gap =>
          rintro _ ⟨⟩
          exact (isBlank_of_gap blanks (by simp)).2

/-! ## Reading -/

theorem ne_of_numberHead {first mark : Char}
    (head : first = '-' ∨ first.isDigit = true)
    (other : mark ≠ '-' ∧ mark.isDigit = false) : first ≠ mark := by
  rintro rfl
  rcases head with rfl | isDigit
  · exact other.1 rfl
  · rw [other.2] at isDigit
    contradiction

/-- What begins with a digit or a minus sign is read as a number. -/
theorem next?_of_numberHead {first : Char}
    (head : first = '-' ∨ first.isDigit = true) (others : List Char) :
    isBlank first = false ∧
      next? first others = (Number.read? (first :: others)).map
        (fun found => (.number found.1, found.2)) := by
  constructor
  · simp only [isBlank, Bool.or_eq_false_iff, beq_eq_false_iff_ne]
    refine ⟨⟨⟨?_, ?_⟩, ?_⟩, ?_⟩ <;>
      exact ne_of_numberHead head (by decide)
  · rw [next?]
    case x_8 | x_9 | x_10 =>
      intro _ same
      exact absurd same (ne_of_numberHead head (by decide))
    all_goals exact ne_of_numberHead head (by decide)

/-- A token is read from a text that begins with it. -/
theorem Written.exists_next? (written : Written token text)
    (ends : IsNumber token → Number.MayEnd rest) :
    ∃ first others, text ++ rest = first :: others ∧ isBlank first = false ∧
      next? first others = some (token, rest) := by
  cases written with
  | number written =>
      obtain ⟨first, others, rfl, head⟩ := written.exists_head
      obtain ⟨noBlank, reads⟩ := next?_of_numberHead head (others ++ rest)
      refine ⟨first, others ++ rest, rfl, noBlank, ?_⟩
      rw [reads, ← List.cons_append, Number.read?_append written (ends trivial)]
      rfl
  | @string pieces text spelled =>
      refine ⟨'"', text ++ '"' :: rest, by simp, rfl, ?_⟩
      rw [next?, spelled.read?_append]
      rfl
  | _ => exact ⟨_, _, rfl, rfl, rfl⟩

theorem split?_gap_append (blanks : IsGap gap) (rest : List Char) :
    split? (gap ++ rest) = split? rest := by
  induction gap with
  | nil => rfl
  | cons blank gap inductionHypothesis =>
      obtain ⟨isBlank, _⟩ := isBlank_of_gap blanks List.mem_cons_self
      rw [List.cons_append, split?, if_pos isBlank]
      exact inductionHypothesis
        (fun _ member => blanks _ (List.mem_cons_of_mem _ member))

theorem split?_of_next? {first : Char} {others : List Char}
    (noBlank : isBlank first = false)
    (reads : next? first others = some (token, rest)) :
    split? (first :: others) = (split? rest).map (token :: ·) := by
  rw [split?, if_neg (by simp [noBlank])]
  split
  next fails => rw [reads] at fails; contradiction
  next token' rest' found =>
    rw [reads] at found
    cases found
    rfl

/-- A text of tokens is cut into these tokens. -/
theorem Spaced.split?_eq (spaced : Spaced tokens text) (apart : Apart tokens) :
    split? text = some tokens := by
  induction spaced with
  | @nil gap blanks =>
      rw [← List.append_nil gap, split?_gap_append blanks, split?]
  | @cons token tokens gap text rest blanks first others inductionHypothesis =>
      obtain ⟨next, apartOthers⟩ := List.isChain_cons.mp apart
      have ends : IsNumber token → Number.MayEnd rest := fun isNumber =>
        others.mayEnd (fun other member both =>
          next other member ⟨isNumber, both⟩)
      obtain ⟨head, behind, same, noBlank, reads⟩ := first.exists_next? ends
      rw [split?_gap_append blanks, same, split?_of_next? noBlank reads,
        inductionHypothesis apartOthers]
      rfl

/-! ## What was read -/

/-- What is read as a token is one of its texts. -/
theorem next?_eq_some {first : Char} {others : List Char}
    (found : next? first others = some (token, rest)) :
    ∃ text, first :: others = text ++ rest ∧ Written token text := by
  unfold next? at found
  split at found
  · cases found
    exact ⟨_, rfl, .openBrace⟩
  · cases found
    exact ⟨_, rfl, .closeBrace⟩
  · cases found
    exact ⟨_, rfl, .openBracket⟩
  · cases found
    exact ⟨_, rfl, .closeBracket⟩
  · cases found
    exact ⟨_, rfl, .colon⟩
  · cases found
    exact ⟨_, rfl, .comma⟩
  · cases found
    exact ⟨_, rfl, .null⟩
  · cases found
    exact ⟨_, rfl, .isTrue⟩
  · cases found
    exact ⟨_, rfl, .isFalse⟩
  · obtain ⟨⟨pieces, behind⟩, read, ⟨⟩⟩ := Option.map_eq_some_iff.mp found
    obtain ⟨string, rfl, spelled⟩ := TextPiece.read?_eq_some read
    exact ⟨'"' :: (string ++ ['"']), by simp, .string spelled⟩
  · obtain ⟨⟨denoted?, behind⟩, read, ⟨⟩⟩ := Option.map_eq_some_iff.mp found
    obtain ⟨number, same, written⟩ := Number.read?_eq_some read
    exact ⟨number, same, .number written⟩

theorem Spaced.cons_blank {character : Char}
    (blank : isBlank character = true) (spaced : Spaced tokens text) :
    Spaced tokens (character :: text) := by
  have longer : ∀ {gap}, IsGap gap → IsGap (character :: gap) :=
    fun blanks => List.forall_mem_cons.mpr
      ⟨by simpa [isBlank, or_assoc] using blank, blanks⟩
  cases spaced with
  | nil blanks => exact .nil (longer blanks)
  | cons blanks first others => exact .cons (longer blanks) first others

theorem spaced_of_split? (found : split? text = some tokens) :
    Spaced tokens text := by
  have noGap : IsGap [] := nofun
  fun_induction split? text generalizing tokens with
  | case1 =>
      cases found
      exact .nil noGap
  | case2 first rest blank inductionHypothesis =>
      exact (inductionHypothesis found).cons_blank blank
  | case3 => contradiction
  | case4 first rest noBlank token after read inductionHypothesis =>
      obtain ⟨others, behind, rfl⟩ := Option.map_eq_some_iff.mp found
      obtain ⟨written, same, isText⟩ := next?_eq_some read
      rw [same]
      exact .cons noGap isText (inductionHypothesis behind)

/-- **Tokens.**  A text is cut into tokens exactly if it is a text of them, as
long as no two numbers stand side by side. -/
theorem split?_eq_some_iff (apart : Apart tokens) :
    split? text = some tokens ↔ Spaced tokens text :=
  ⟨spaced_of_split?, fun spaced => spaced.split?_eq apart⟩

end MiniMips.Json.Token
