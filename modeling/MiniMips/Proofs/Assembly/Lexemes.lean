import MiniMips.Assembly.Lexeme
import MiniMips.Proofs.Lists

/-!
Contract: the texts that a list of lexemes can be cut from.

Owns:
- the lexemes that a cut can yield, and the characters that would continue
  each of them;
- the texts of a list of lexemes, as a relation, and that the cut inverts it;
- joining such texts, and the characters in them.
-/

namespace MiniMips

def isName : List Char → Bool
  | [] => false
  | first :: rest => isNameStart first && rest.all isNameCharacter

def isLiteral : List Char → Bool
  | [] => false
  | first :: rest => isLiteralStart first && rest.all isLiteralCharacter

/-- The separators, the parentheses, and the mark of a register. -/
def marks : List Char :=
  [' ', '\t', '\r', ',', '(', ')', '$']

variable {lexeme : Lexeme} {first : Char} {characters rest : List Char}
  {lexemes : List Lexeme}

/-! ## Classes of characters -/

theorem mem_marks_of_isSeparator (separates : isSeparator first = true) :
    first ∈ marks := by
  simp only [isSeparator, Bool.or_eq_true, beq_iff_eq] at separates
  rcases separates with ((rfl | rfl) | rfl) | rfl <;> decide

/-- A class that has no mark in it. -/
theorem not_mem_marks {accepts : Char → Bool}
    (refuses : marks.any accepts = false) (accepted : accepts first = true) :
    first ∉ marks := by
  intro mark
  have among := List.any_eq_true.mpr ⟨first, mark, accepted⟩
  rw [refuses] at among
  contradiction

theorem isAlpha_of_isDigit (digit : first.isDigit = true) :
    first.isAlpha = false := by
  have bounds : 48 ≤ first.toNat ∧ first.toNat ≤ 57 := by
    simpa [Char.isDigit, UInt32.le_iff_toNat_le] using digit
  refine Bool.eq_false_iff.mpr fun alpha => ?_
  rcases Bool.or_eq_true_iff.mp alpha with upper | lower
  · have least : 65 ≤ first.toNat := (of_decide_eq_true upper).1
    omega
  · have least : 97 ≤ first.toNat :=
      of_decide_eq_true (Bool.and_eq_true_iff.mp lower).1
    omega

theorem isLiteralStart_of_isNameStart (starts : isNameStart first = true) :
    isLiteralStart first = false := by
  refine Bool.eq_false_iff.mpr fun literal => ?_
  simp only [isLiteralStart, Bool.or_eq_true, beq_iff_eq] at literal
  rcases literal with (rfl | rfl) | digit
  · contradiction
  · contradiction
  · simp only [isNameStart, isAlpha_of_isDigit digit, Bool.false_or,
      Bool.or_eq_true, beq_iff_eq] at starts
    rcases starts with rfl | rfl <;> contradiction

namespace Lexeme

/-- Whether a lexeme is one that a cut can yield: it consists of characters of
its classes. -/
def isProper : Lexeme → Bool
  | .openParenthesis | .closeParenthesis => true
  | .register name => name.all isNameCharacter
  | .integer text => isLiteral text
  | .label name | .word name => isName name
  | .stray character =>
      !(marks.contains character || isLiteralStart character ||
        isNameStart character)

/-- Whether a character that directly follows a lexeme would continue it. -/
def continues : Lexeme → Char → Bool
  | .register _, character => isNameCharacter character
  | .integer _, character => isLiteralCharacter character
  | .word _, character => isNameCharacter character || character == ':'
  | _, _ => false

/-- The texts of lexemes: separators may stand anywhere between them, and have
to stand where one would continue the other. -/
inductive Written : List Char → List Lexeme → Prop where
  | nil : Written [] []
  | separator {character : Char} {rest : List Char} {lexemes : List Lexeme}
      (separates : isSeparator character = true)
      (others : Written rest lexemes) :
      Written (character :: rest) lexemes
  | lexeme {lexeme : Lexeme} {rest : List Char} {lexemes : List Lexeme}
      (proper : lexeme.isProper = true)
      (apart : ∀ first ∈ rest.head?, lexeme.continues first = false)
      (others : Written rest lexemes) :
      Written (lexeme.text ++ rest) (lexeme :: lexemes)

/-! ## One lexeme -/

theorem ofName_of_not_colon {name : List Char}
    (noColon : ∀ first ∈ rest.head?, first ≠ ':') :
    ofName name rest = (.word name, rest) := by
  unfold ofName
  split
  next rest => exact absurd rfl (noColon ':' (by simp))
  next => rfl

theorem next_of_not_mark (noMark : first ∉ marks) (rest : List Char) :
    next first rest =
      if isLiteralStart first then
        (.integer (first :: rest.takeWhile isLiteralCharacter),
          rest.dropWhile isLiteralCharacter)
      else if isNameStart first then
        ofName (first :: rest.takeWhile isNameCharacter)
          (rest.dropWhile isNameCharacter)
      else
        (.stray first, rest) := by
  have apart : ∀ mark ∈ marks, first ≠ mark :=
    fun mark among same => noMark (same ▸ among)
  rw [next, if_neg (apart '(' (by decide)), if_neg (apart ')' (by decide)),
    if_neg (apart '$' (by decide))]

/-- A proper lexeme that nothing continues is cut off. -/
theorem next_of_proper (proper : lexeme.isProper = true)
    (apart : ∀ first ∈ rest.head?, lexeme.continues first = false) :
    ∃ first more, lexeme.text = first :: more ∧ isSeparator first = false ∧
      next first (more ++ rest) = (lexeme, rest) := by
  have lexical : ∀ {first}, first ∉ marks → isSeparator first = false :=
    fun noMark => Bool.eq_false_iff.mpr
      (fun separates => noMark (mem_marks_of_isSeparator separates))
  cases lexeme with
  | openParenthesis => exact ⟨'(', [], rfl, rfl, rfl⟩
  | closeParenthesis => exact ⟨')', [], rfl, rfl, rfl⟩
  | register name =>
      refine ⟨'$', name, rfl, rfl, ?_⟩
      obtain ⟨taken, dropped⟩ :=
        takeWhile_append_of_stop (List.all_eq_true.mp proper) apart
      simp [next, taken, dropped]
  | integer text =>
      cases text with
      | nil => cases proper
      | cons first more =>
          obtain ⟨starts, all⟩ := Bool.and_eq_true_iff.mp proper
          have noMark := not_mem_marks (by decide) starts
          obtain ⟨taken, dropped⟩ :=
            takeWhile_append_of_stop (List.all_eq_true.mp all) apart
          refine ⟨first, more, rfl, lexical noMark, ?_⟩
          rw [next_of_not_mark noMark, if_pos starts, taken, dropped]
  | label name =>
      cases name with
      | nil => cases proper
      | cons first more =>
          obtain ⟨starts, all⟩ := Bool.and_eq_true_iff.mp proper
          have noMark := not_mem_marks (by decide) starts
          have stop : ∀ following ∈ (':' :: rest).head?,
              isNameCharacter following = false := by
            rintro following ⟨⟩
            decide
          obtain ⟨taken, dropped⟩ :=
            takeWhile_append_of_stop (List.all_eq_true.mp all) stop
          refine ⟨first, more ++ [':'], rfl, lexical noMark, ?_⟩
          rw [List.append_assoc, List.singleton_append,
            next_of_not_mark noMark, isLiteralStart_of_isNameStart starts,
            if_neg Bool.false_ne_true, if_pos starts, taken, dropped]
          rfl
  | word name =>
      cases name with
      | nil => cases proper
      | cons first more =>
          obtain ⟨starts, all⟩ := Bool.and_eq_true_iff.mp proper
          have noMark := not_mem_marks (by decide) starts
          have stop : ∀ following ∈ rest.head?,
              isNameCharacter following = false ∧ following ≠ ':' := by
            intro following member
            simpa [continues] using apart following member
          obtain ⟨taken, dropped⟩ :=
            takeWhile_append_of_stop (List.all_eq_true.mp all)
              (fun following member => (stop following member).1)
          refine ⟨first, more, rfl, lexical noMark, ?_⟩
          rw [next_of_not_mark noMark, isLiteralStart_of_isNameStart starts,
            if_neg Bool.false_ne_true, if_pos starts, taken, dropped,
            ofName_of_not_colon
              (fun following member => (stop following member).2)]
  | stray character =>
      simp only [isProper, Bool.not_eq_true', Bool.or_eq_false_iff,
        List.contains_eq_mem, decide_eq_false_iff_not] at proper
      obtain ⟨⟨noMark, noLiteral⟩, noName⟩ := proper
      refine ⟨character, [], rfl, lexical noMark, ?_⟩
      rw [next_of_not_mark noMark, noLiteral, noName]
      rfl

/-- A name is a label or a word that nothing continues. -/
theorem ofName_spec {name : List Char} (proper : isName name = true)
    (stops : ∀ following ∈ rest.head?, isNameCharacter following = false) :
    (ofName name rest).1.isProper = true ∧
      (∀ following ∈ (ofName name rest).2.head?,
        (ofName name rest).1.continues following = false) ∧
      (ofName name rest).1.text ++ (ofName name rest).2 = name ++ rest := by
  unfold ofName
  split
  next after =>
    refine ⟨proper, fun _ _ => rfl, ?_⟩
    exact List.append_assoc name [':'] after
  next noColon =>
    refine ⟨proper, fun following member => ?_, rfl⟩
    have apart : following ≠ ':' := by
      rintro rfl
      obtain ⟨after, cut⟩ := List.head?_eq_some_iff.mp member
      exact noColon after cut
    simp [continues, stops following member, apart]

/-- What is cut off is a proper lexeme that nothing continues, and it was at
the front. -/
theorem next_spec (lexical : isSeparator first = false) :
    (next first rest).1.isProper = true ∧
      (∀ following ∈ (next first rest).2.head?,
        (next first rest).1.continues following = false) ∧
      (next first rest).1.text ++ (next first rest).2 = first :: rest := by
  have stop : ∀ (accepts : Char → Bool),
      ∀ following ∈ (rest.dropWhile accepts).head?,
        accepts following = false := by
    intro accepts following member
    have refused := List.head?_dropWhile_not accepts rest
    rw [member] at refused
    exact refused
  by_cases opens : first = '('
  · subst opens
    exact ⟨rfl, fun _ _ => rfl, rfl⟩
  by_cases closes : first = ')'
  · subst closes
    exact ⟨rfl, fun _ _ => rfl, rfl⟩
  by_cases marked : first = '$'
  · subst marked
    refine ⟨List.all_takeWhile, stop isNameCharacter, ?_⟩
    exact congrArg ('$' :: ·) List.takeWhile_append_dropWhile
  have noMark : first ∉ marks := by
    simp [isSeparator] at lexical
    simp [marks, lexical, opens, closes, marked]
  rw [next_of_not_mark noMark]
  split
  next starts =>
    refine ⟨?_, stop isLiteralCharacter, ?_⟩
    · exact Bool.and_eq_true_iff.mpr ⟨starts, List.all_takeWhile⟩
    · exact congrArg (first :: ·) List.takeWhile_append_dropWhile
  next noLiteral =>
    split
    next starts =>
      have proper : isName (first :: rest.takeWhile isNameCharacter) = true :=
        Bool.and_eq_true_iff.mpr ⟨starts, List.all_takeWhile⟩
      have named := ofName_spec proper (stop isNameCharacter)
      rw [List.cons_append, List.takeWhile_append_dropWhile] at named
      exact named
    next noName =>
      refine ⟨?_, fun _ _ => rfl, rfl⟩
      simp [isProper, noMark, noLiteral, noName]

/-- **Cutting.**  The cut of a text yields exactly the lexemes that the text is
a text of. -/
theorem split_eq_iff : split characters = lexemes ↔ Written characters lexemes := by
  constructor
  · rintro rfl
    fun_induction split characters with
    | case1 => exact .nil
    | case2 first rest separates inductionHypothesis =>
        exact .separator separates inductionHypothesis
    | case3 first rest lexical inductionHypothesis =>
        obtain ⟨proper, apart, whole⟩ :=
          next_spec (Bool.eq_false_iff.mpr lexical)
        rw [← whole]
        exact .lexeme proper apart inductionHypothesis
  · intro written
    induction written with
    | nil => rw [split]
    | separator separates others inductionHypothesis =>
        rw [split, if_pos separates, inductionHypothesis]
    | lexeme proper apart others inductionHypothesis =>
        obtain ⟨first, more, text, lexical, cut⟩ := next_of_proper proper apart
        rw [text, List.cons_append, split, lexical, if_neg Bool.false_ne_true,
          cut, inductionHypothesis]

theorem Written.isProper (written : Written characters lexemes) :
    ∀ lexeme ∈ lexemes, lexeme.isProper = true := by
  induction written with
  | nil => simp
  | separator separates others inductionHypothesis => exact inductionHypothesis
  | lexeme proper apart others inductionHypothesis =>
      exact List.forall_mem_cons.mpr ⟨proper, inductionHypothesis⟩

/-! ## Joining texts -/

/-- No lexeme is continued by a mark. -/
theorem continues_of_mem_marks (mark : first ∈ marks) :
    lexeme.continues first = false := by
  have noName : isNameCharacter first = false :=
    Bool.eq_false_iff.mpr
      (fun accepted => not_mem_marks (by decide) accepted mark)
  have noLiteral : isLiteralCharacter first = false :=
    Bool.eq_false_iff.mpr
      (fun accepted => not_mem_marks (by decide) accepted mark)
  have noColon : first ≠ ':' := by
    rintro rfl
    contradiction
  cases lexeme <;> simp [continues, noName, noLiteral, noColon]

/-- A text may be followed by one that begins with a mark. -/
theorem Written.append_of_marked {more : List Char} {others : List Lexeme}
    (written : Written characters lexemes) (further : Written more others)
    (marked : ∀ first ∈ more.head?, first ∈ marks) :
    Written (characters ++ more) (lexemes ++ others) := by
  induction written with
  | nil => exact further
  | separator separates _ inductionHypothesis =>
      exact .separator separates inductionHypothesis
  | @lexeme lexeme rest lexemes proper apart _ inductionHypothesis =>
      rw [List.append_assoc]
      refine .lexeme proper ?_ inductionHypothesis
      intro first member
      cases rest with
      | nil => exact continues_of_mem_marks (marked first member)
      | cons head rest => exact apart first member

/-- A text may be followed by one that begins with a separator. -/
theorem Written.append {more : List Char} {others : List Lexeme}
    (written : Written characters lexemes) (further : Written more others)
    (separated : ∀ first ∈ more.head?, isSeparator first = true) :
    Written (characters ++ more) (lexemes ++ others) :=
  written.append_of_marked further
    (fun first member => mem_marks_of_isSeparator (separated first member))

theorem Written.single (proper : lexeme.isProper = true) :
    Written lexeme.text [lexeme] := by
  have written := Written.lexeme proper (by simp) .nil
  rw [List.append_nil] at written
  exact written

/-- Separators may stand before a text. -/
theorem Written.indented {indent : List Char}
    (separates : indent.all isSeparator = true)
    (written : Written rest lexemes) : Written (indent ++ rest) lexemes := by
  induction indent with
  | nil => exact written
  | cons first indent inductionHypothesis =>
      obtain ⟨separator, others⟩ := Bool.and_eq_true_iff.mp separates
      exact .separator separator (inductionHypothesis others)

theorem Written.blank {gap : List Char}
    (separates : gap.all isSeparator = true) : Written gap [] := by
  rw [← List.append_nil gap]
  exact Written.nil.indented separates

/-- A text is cut before and after each of its lexemes, which nothing that
follows continues. -/
theorem Written.exists_cut {before after : List Lexeme}
    (written : Written characters (before ++ lexeme :: after)) :
    ∃ front back, characters = front ++ (lexeme.text ++ back) ∧
      Written front before ∧ Written back after ∧
      ∀ following ∈ back.head?, lexeme.continues following = false := by
  generalize whole : before ++ lexeme :: after = lexemes at written
  induction written generalizing before with
  | nil => simp at whole
  | @separator character rest lexemes separates others inductionHypothesis =>
      obtain ⟨front, back, rfl, first, second, apart⟩ :=
        inductionHypothesis whole
      exact ⟨character :: front, back, rfl, .separator separates first,
        second, apart⟩
  | @lexeme head rest lexemes proper apart others inductionHypothesis =>
      cases before with
      | nil =>
          cases whole
          exact ⟨[], rest, rfl, .nil, others, apart⟩
      | cons earlier before =>
          cases whole
          obtain ⟨front, back, rfl, first, second, apartLater⟩ :=
            inductionHypothesis rfl
          refine ⟨head.text ++ front, back, ?_, ?_, second, apartLater⟩
          · rw [List.append_assoc]
          · refine .lexeme proper (fun following member => ?_) first
            refine apart following ?_
            rw [List.head?_append, Option.mem_def.mp member]
            rfl

/-- Texts may be joined by a comma and a blank. -/
theorem Written.intercalate {α : Type} {textOf : α → List Char}
    {lexemesOf : α → List Lexeme} {items : List α}
    (written : ∀ item ∈ items, Written (textOf item) (lexemesOf item)) :
    Written ([',', ' '].intercalate (items.map textOf))
      (items.flatMap lexemesOf) := by
  induction items with
  | nil => exact .nil
  | cons item items inductionHypothesis =>
      have first := written item (by simp)
      cases items with
      | nil => simpa using first
      | cons next items =>
          have others := inductionHypothesis
            (fun other member => written other (List.mem_cons_of_mem _ member))
          rw [List.map_cons, List.map_cons, List.intercalate_cons_cons,
            List.append_assoc, List.flatMap_cons]
          refine first.append (.separator rfl (.separator rfl others)) ?_
          rintro character ⟨⟩
          rfl

/-! ## Characters of a text -/

/-- Whether a character belongs to no lexeme but a stray one. -/
def isForeign (character : Char) : Bool :=
  !(marks.contains character || isLiteralStart character ||
    isNameCharacter character || character == ':')

theorem isNameCharacter_of_isNameStart (starts : isNameStart first = true) :
    isNameCharacter first = true := by
  simp only [isNameStart, isNameCharacter, Char.isAlphanum, Bool.or_eq_true]
    at starts ⊢
  tauto

theorem isNameCharacter_of_isLiteralCharacter
    (continues : isLiteralCharacter first = true) :
    isNameCharacter first = true := by
  simp only [isLiteralCharacter, isNameCharacter, Bool.or_eq_true]
    at continues ⊢
  exact .inl continues

theorem isNameCharacter_of_isName {name : List Char}
    (proper : isName name = true) {character : Char}
    (member : character ∈ name) : isNameCharacter character = true := by
  cases name with
  | nil => contradiction
  | cons first more =>
      obtain ⟨starts, all⟩ := Bool.and_eq_true_iff.mp proper
      rcases List.mem_cons.mp member with rfl | inMore
      · exact isNameCharacter_of_isNameStart starts
      · exact List.all_eq_true.mp all character inMore

/-- The characters of a proper lexeme are of few kinds. -/
theorem mem_text_cases (proper : lexeme.isProper = true) {character : Char}
    (member : character ∈ lexeme.text) :
    character ∈ ['(', ')', '$', ':'] ∨ isLiteralStart character = true ∨
      isNameCharacter character = true ∨ lexeme = .stray character := by
  cases lexeme with
  | openParenthesis | closeParenthesis =>
      rw [List.mem_singleton.mp member]
      exact .inl (by decide)
  | register name =>
      rcases List.mem_cons.mp member with rfl | among
      · exact .inl (by decide)
      · exact .inr (.inr (.inl (List.all_eq_true.mp proper character among)))
  | integer text =>
      cases text with
      | nil => contradiction
      | cons first more =>
          obtain ⟨starts, all⟩ := Bool.and_eq_true_iff.mp proper
          rcases List.mem_cons.mp member with rfl | among
          · exact .inr (.inl starts)
          · exact .inr (.inr (.inl (isNameCharacter_of_isLiteralCharacter
              (List.all_eq_true.mp all character among))))
  | label name =>
      rcases List.mem_append.mp member with among | isColon
      · exact .inr (.inr (.inl (isNameCharacter_of_isName proper among)))
      · rw [List.mem_singleton.mp isColon]
        exact .inl (by decide)
  | word name =>
      exact .inr (.inr (.inl (isNameCharacter_of_isName proper member)))
  | stray other =>
      rw [List.mem_singleton.mp member]
      exact .inr (.inr (.inr rfl))

theorem not_isForeign_of_mem_text (proper : lexeme.isProper = true)
    {character : Char} (noStray : lexeme ≠ .stray character)
    (member : character ∈ lexeme.text) : isForeign character = false := by
  rcases mem_text_cases proper member with
    mark | starts | inName | stray
  · simp only [List.mem_cons, List.not_mem_nil, or_false] at mark
    rcases mark with rfl | rfl | rfl | rfl <;> decide
  · simp [isForeign, starts]
  · simp [isForeign, inName]
  · exact absurd stray noStray

/-- No separator is part of a lexeme. -/
theorem not_isSeparator_of_mem_text (proper : lexeme.isProper = true)
    {character : Char} (member : character ∈ lexeme.text) :
    isSeparator character = false := by
  refine Bool.eq_false_iff.mpr fun separates => ?_
  have mark := mem_marks_of_isSeparator separates
  rcases mem_text_cases proper member with
    other | starts | inName | stray
  · simp only [List.mem_cons, List.not_mem_nil, or_false] at other
    rcases other with rfl | rfl | rfl | rfl <;> contradiction
  · exact not_mem_marks (by decide) starts mark
  · exact not_mem_marks (by decide) inName mark
  · rw [stray] at proper
    simp [isProper, mark] at proper

theorem text_ne_nil (proper : lexeme.isProper = true) : lexeme.text ≠ [] := by
  have apart : ∀ first ∈ [].head?, lexeme.continues first = false := by simp
  obtain ⟨first, more, text, _⟩ := next_of_proper proper apart
  rw [text]
  exact List.cons_ne_nil first more

/-- A separator is no part of the lexemes of a text. -/
theorem Written.of_separator (separates : isSeparator first = true)
    (written : Written (first :: rest) lexemes) : Written rest lexemes := by
  rw [← split_eq_iff, split, if_pos separates] at written
  exact split_eq_iff.mp written

/-- Behind the text of its first lexeme, a text has the other ones. -/
theorem Written.of_lexeme
    (written : Written (lexeme.text ++ rest) (lexeme :: lexemes)) :
    (∀ first ∈ rest.head?, lexeme.continues first = false) ∧
      Written rest lexemes := by
  have proper := written.isProper lexeme List.mem_cons_self
  generalize whole : lexeme.text ++ rest = characters at written
  cases written with
  | @separator character _ _ separates others =>
      obtain ⟨first, more, spelled⟩ :=
        List.exists_cons_of_ne_nil (text_ne_nil proper)
      rw [spelled] at whole
      obtain ⟨rfl, _⟩ := List.cons.inj whole
      have lexical := not_isSeparator_of_mem_text proper
        (spelled ▸ List.mem_cons_self)
      rw [lexical] at separates
      contradiction
  | lexeme _ apart others =>
      obtain rfl := List.append_cancel_left whole
      exact ⟨apart, others⟩

/-- Lexemes hold all of their text but the separators. -/
theorem Written.flatMap_text (written : Written characters lexemes) :
    lexemes.flatMap text =
      characters.filter (fun character => !isSeparator character) := by
  induction written with
  | nil => rfl
  | separator separates others inductionHypothesis =>
      rw [inductionHypothesis, List.filter_cons_of_neg (by simp [separates])]
  | @lexeme lexeme rest lexemes proper apart others inductionHypothesis =>
      have whole : lexeme.text.filter
          (fun character => !isSeparator character) = lexeme.text := by
        refine List.filter_eq_self.mpr fun character member => ?_
        rw [not_isSeparator_of_mem_text proper member]
        rfl
      rw [List.flatMap_cons, inductionHypothesis, List.filter_append, whole]

/-- A character that is not stray does not have to be. -/
theorem Written.not_isForeign (written : Written characters lexemes)
    {character : Char} (noStray : .stray character ∉ lexemes)
    (member : character ∈ characters) : isForeign character = false := by
  induction written with
  | nil => cases member
  | separator separates others inductionHypothesis =>
      rcases List.mem_cons.mp member with rfl | inRest
      · simp [isForeign, mem_marks_of_isSeparator separates]
      · exact inductionHypothesis noStray inRest
  | lexeme proper apart others inductionHypothesis =>
      rw [List.mem_cons, not_or] at noStray
      rcases List.mem_append.mp member with inText | inRest
      · exact not_isForeign_of_mem_text proper (Ne.symm noStray.1) inText
      · exact inductionHypothesis noStray.2 inRest

end Lexeme

end MiniMips
