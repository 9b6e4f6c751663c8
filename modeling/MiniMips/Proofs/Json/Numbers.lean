import MiniMips.Json.Number
import MiniMips.Proofs.Json.Grammar
import MiniMips.Proofs.Lists
import MiniMips.Proofs.Numeral

/-!
Contract: reading the numbers of JSON documents.

Owns:
- which characters would make a number longer;
- that a number is read from a text that begins with it, together with the
  integer that it denotes, and that nothing else is read as a number.
-/

namespace MiniMips

theorem Numeral.decimalDigits_zero : decimalDigits 0 = ['0'] := by
  rw [decimalDigits, if_pos (by decide)]
  rfl

/-- No number but zero begins with the digit zero. -/
theorem Numeral.head?_decimalDigits {value : Nat} (positive : 0 < value) :
    (decimalDigits value).head? ≠ some '0' := by
  fun_induction decimalDigits value with
  | case1 value small =>
      have nonzero : ∀ value < 10, 0 < value → digitCharacter value ≠ '0' := by
        decide
      simpa using nonzero value small positive
  | case2 value large inductionHypothesis =>
      obtain ⟨first, rest, written⟩ :=
        List.exists_cons_of_ne_nil (decimalDigits_ne_nil (value / 10))
      have before := inductionHypothesis (by omega)
      rw [written] at before ⊢
      exact before

/-- Each character that is a decimal digit is one of the ten. -/
theorem Numeral.exists_digitCharacter {character : Char}
    (isDigit : character.isDigit = true) :
    ∃ value < 10, character = digitCharacter value := by
  have bounds : 48 ≤ character.toNat ∧ character.toNat ≤ 57 := by
    simpa [Char.isDigit, UInt32.le_iff_toNat_le] using isDigit
  have code : '0'.toNat + (character.toNat - 48) = character.toNat := by
    show 48 + _ = _
    omega
  exact ⟨character.toNat - 48, by omega,
    by rw [digitCharacter, code, Char.ofNat_toNat]⟩

theorem Numeral.decimalDigits_append_digit {value digit : Nat}
    (positive : 0 < value) (small : digit < 10) :
    decimalDigits (10 * value + digit) =
      decimalDigits value ++ [digitCharacter digit] := by
  rw [decimalDigits, if_neg (by omega)]
  congr <;> omega

namespace Json.Number

/-- Whether a character directly behind a number would belong to it. -/
def continues (character : Char) : Bool :=
  character.isDigit || character == '.' || character == 'e' ||
    character == 'E'

/-- A number may end before this text. -/
def MayEnd (rest : List Char) : Prop :=
  ∀ first ∈ rest.head?, continues first = false

variable {digits fraction exponent text rest : List Char}
  {denoted? : Option Int}

theorem isDigits_decimalDigits (value : Nat) :
    IsDigits (Numeral.decimalDigits value) :=
  ⟨Numeral.decimalDigits_ne_nil value,
    fun _ => Numeral.isDigit_of_mem_decimalDigits⟩

theorem digits?_append (decimal : IsDigits digits)
    (stop : ∀ first ∈ rest.head?, first.isDigit = false) :
    digits? (digits ++ rest) = some (digits, rest) := by
  obtain ⟨taken, dropped⟩ := takeWhile_append_of_stop decimal.2 stop
  have notEmpty : digits.isEmpty = false := by simpa using decimal.1
  simp only [digits?, taken, dropped, notEmpty, Bool.false_eq_true, if_false]

theorem wholePart?_append (value : Nat)
    (stop : ∀ first ∈ rest.head?, first.isDigit = false) :
    wholePart? (Numeral.decimalDigits value ++ rest) =
      some (Numeral.decimalDigits value, rest) := by
  have decimal := isDigits_decimalDigits value
  by_cases zero : value = 0
  · subst zero
    rw [Numeral.decimalDigits_zero]
    rfl
  · have noZero := Numeral.head?_decimalDigits (Nat.pos_of_ne_zero zero)
    rw [← digits?_append decimal stop]
    obtain ⟨first, others, written⟩ :=
      List.exists_cons_of_ne_nil decimal.1
    rw [written] at noZero ⊢
    rw [List.cons_append, wholePart?]
    intro others same
    obtain ⟨rfl, _⟩ := List.cons.inj same
    exact noZero rfl

theorem skipFraction?_append (behindPoint : Fraction fraction)
    (stop : ∀ first ∈ rest.head?, first.isDigit = false ∧ first ≠ '.') :
    skipFraction? (fraction ++ rest) = some (!fraction.isEmpty, rest) := by
  cases behindPoint with
  | absent =>
      rw [List.nil_append, skipFraction?]
      · rfl
      · rintro others rfl
        exact (stop '.' rfl).2 rfl
  | @present digits decimal =>
      rw [List.cons_append, skipFraction?,
        digits?_append decimal (fun first member => (stop first member).1)]
      rfl

theorem skipSign_append {sign : List Char}
    (signs : sign = [] ∨ sign = ['+'] ∨ sign = ['-'])
    (decimal : IsDigits digits) :
    skipSign (sign ++ (digits ++ rest)) = digits ++ rest := by
  rcases signs with rfl | rfl | rfl
  · obtain ⟨first, others, rfl⟩ := List.exists_cons_of_ne_nil decimal.1
    have isDigit := decimal.2 first (by simp)
    rw [List.nil_append, List.cons_append, skipSign]
    · rintro others' same
      obtain ⟨rfl, _⟩ := List.cons.inj same
      contradiction
    · rintro others' same
      obtain ⟨rfl, _⟩ := List.cons.inj same
      contradiction
  · rfl
  · rfl

theorem skipExponent?_append (behindMark : Exponent exponent)
    (stop : ∀ first ∈ rest.head?,
      first.isDigit = false ∧ first ≠ 'e' ∧ first ≠ 'E') :
    skipExponent? (exponent ++ rest) = some (!exponent.isEmpty, rest) := by
  cases behindMark with
  | absent =>
      rw [List.nil_append, skipExponent?]
      · rfl
      · rintro others rfl
        exact (stop 'e' rfl).2.1 rfl
      · rintro others rfl
        exact (stop 'E' rfl).2.2 rfl
  | @present mark sign digits marks signs decimal =>
      have found := digits?_append decimal
        (fun first member => (stop first member).1)
      have skipped : skipSign (sign ++ (digits ++ rest)) = digits ++ rest :=
        skipSign_append signs decimal
      rcases marks with rfl | rfl <;>
        simp [skipExponent?, List.append_assoc, skipped, found]

theorem continues_eq_false_iff {character : Char} :
    continues character = false ↔
      character.isDigit = false ∧ character ≠ '.' ∧ character ≠ 'e' ∧
        character ≠ 'E' := by
  simp [continues, and_assoc]

/-- What begins with an exponent, or with what may follow a number, goes on
neither a run of digits nor a fraction. -/
theorem head?_exponent_append (behindMark : Exponent exponent)
    (ends : MayEnd rest) :
    ∀ first ∈ (exponent ++ rest).head?,
      first.isDigit = false ∧ first ≠ '.' := by
  intro first member
  cases behindMark with
  | absent =>
      have stops := continues_eq_false_iff.mp (ends first member)
      exact ⟨stops.1, stops.2.1⟩
  | present marks _ _ =>
      cases member
      rcases marks with rfl | rfl <;> decide

theorem head?_fraction_append (behindPoint : Fraction fraction)
    (behindMark : Exponent exponent) (ends : MayEnd rest) :
    ∀ first ∈ (fraction ++ (exponent ++ rest)).head?,
      first.isDigit = false := by
  intro first member
  cases behindPoint with
  | absent => exact (head?_exponent_append behindMark ends first member).1
  | present _ =>
      cases member
      rfl

theorem readUnsigned?_append (negative : Bool) (whole : Nat)
    (behindPoint : Fraction fraction) (behindMark : Exponent exponent)
    (ends : MayEnd rest) :
    readUnsigned? negative
        (Numeral.decimalDigits whole ++ (fraction ++ (exponent ++ rest))) =
      some (if fraction ++ exponent = [] then
          integer? negative (Numeral.decimalDigits whole)
        else none, rest) := by
  have fractionEnds := head?_exponent_append behindMark ends
  have exponentEnds : ∀ first ∈ rest.head?,
      first.isDigit = false ∧ first ≠ 'e' ∧ first ≠ 'E' := by
    intro first member
    have stops := continues_eq_false_iff.mp (ends first member)
    exact ⟨stops.1, stops.2.2⟩
  rw [readUnsigned?,
    wholePart?_append whole (head?_fraction_append behindPoint behindMark ends)]
  simp only [skipFraction?_append behindPoint fractionEnds,
    skipExponent?_append behindMark exponentEnds]
  cases fraction <;> cases exponent <;> rfl

/-- Digits have no sign before them. -/
theorem read?_decimalDigits_append (whole : Nat) (others : List Char) :
    read? (Numeral.decimalDigits whole ++ others) =
      readUnsigned? false (Numeral.decimalDigits whole ++ others) := by
  have decimal := isDigits_decimalDigits whole
  obtain ⟨first, digits, written⟩ := List.exists_cons_of_ne_nil decimal.1
  have isDigit := decimal.2 first (by simp [written])
  rw [written, List.cons_append, read?]
  intro rest same
  obtain ⟨rfl, _⟩ := List.cons.inj same
  contradiction

/-- **Numbers.**  A number is read from a text that begins with it, together
with the integer it denotes, if nothing behind it could belong to it. -/
theorem read?_append (written : Written denoted? text) (ends : MayEnd rest) :
    read? (text ++ rest) = some (denoted?, rest) := by
  have plain : ∀ (negative : Bool) (whole : Nat),
      readUnsigned? negative (Numeral.decimalDigits whole ++ rest) =
        some (integer? negative (Numeral.decimalDigits whole), rest) :=
    fun negative whole =>
      readUnsigned?_append negative whole .absent .absent ends
  cases written with
  | integer value =>
      rw [Numeral.toList_ofInt]
      cases value with
      | ofNat magnitude =>
          simp only [read?_decimalDigits_append, plain, integer?,
            Numeral.value?_decimalDigits]
          rfl
      | negSucc predecessor =>
          simp only [List.cons_append, read?, plain, integer?,
            Numeral.value?_decimalDigits]
          rfl
  | negativeZero =>
      have zero := plain true 0
      rw [Numeral.decimalDigits_zero] at zero
      exact zero
  | @fractional sign fraction exponent whole signs behindPoint behindMark
      marked =>
      have found := fun negative =>
        readUnsigned?_append negative whole behindPoint behindMark ends
      simp only [if_neg marked] at found
      rw [List.append_assoc, List.append_assoc, List.append_assoc]
      rcases signs with rfl | rfl
      · rw [List.nil_append, read?_decimalDigits_append, found]
      · exact found true

/-- A number begins with a digit or a minus sign. -/
theorem Written.exists_head (written : Written denoted? text) :
    ∃ first others, text = first :: others ∧
      (first = '-' ∨ first.isDigit = true) := by
  have digitsFirst : ∀ (whole : Nat) (others : List Char),
      ∃ first behind, Numeral.decimalDigits whole ++ others = first :: behind ∧
        (first = '-' ∨ first.isDigit = true) := by
    intro whole others
    have decimal := isDigits_decimalDigits whole
    obtain ⟨first, digits, written⟩ := List.exists_cons_of_ne_nil decimal.1
    rw [written]
    exact ⟨first, digits ++ others, rfl,
      .inr (decimal.2 first (by simp [written]))⟩
  cases written with
  | integer value =>
      rw [Numeral.toList_ofInt]
      cases value with
      | ofNat magnitude => simpa using digitsFirst magnitude []
      | negSucc predecessor => exact ⟨'-', _, rfl, .inl rfl⟩
  | negativeZero => exact ⟨'-', _, rfl, .inl rfl⟩
  | @fractional sign fraction exponent whole signs _ _ _ =>
      rcases signs with rfl | rfl
      · exact digitsFirst whole (fraction ++ exponent)
      · exact ⟨'-', _, rfl, .inl rfl⟩

/-! ## What was read -/

theorem IsDigits.exists_decimalDigits (decimal : IsDigits digits)
    (noZero : digits.head? ≠ some '0') :
    ∃ whole, 0 < whole ∧ digits = Numeral.decimalDigits whole := by
  induction digits using List.reverseRecOn with
  | nil => exact absurd rfl decimal.1
  | append_singleton front last inductionHypothesis =>
      obtain ⟨digit, small, rfl⟩ :=
        Numeral.exists_digitCharacter (decimal.2 last (by simp))
      cases front with
      | nil =>
          have nonzero : digit ≠ 0 := by
            rintro rfl
            exact noZero rfl
          refine ⟨digit, Nat.pos_of_ne_zero nonzero, ?_⟩
          rw [Numeral.decimalDigits, if_pos small]
          rfl
      | cons first others =>
          have decimalFront : IsDigits (first :: others) :=
            ⟨List.cons_ne_nil _ _,
              fun _ member => decimal.2 _ (List.mem_append_left _ member)⟩
          obtain ⟨whole, positive, same⟩ :=
            inductionHypothesis decimalFront noZero
          refine ⟨10 * whole + digit, by omega, ?_⟩
          rw [same, Numeral.decimalDigits_append_digit positive small]

theorem digits?_eq_some (found : digits? text = some (digits, rest)) :
    text = digits ++ rest ∧ IsDigits digits := by
  simp only [digits?] at found
  split at found
  · contradiction
  · next notEmpty =>
    cases found
    exact ⟨List.takeWhile_append_dropWhile.symm, by simpa using notEmpty,
      List.all_eq_true.mp List.all_takeWhile⟩

theorem wholePart?_eq_some (found : wholePart? text = some (digits, rest)) :
    text = digits ++ rest ∧ ∃ whole, digits = Numeral.decimalDigits whole := by
  unfold wholePart? at found
  split at found
  · cases found
    exact ⟨rfl, 0, Numeral.decimalDigits_zero.symm⟩
  · next noZero =>
    obtain ⟨rfl, decimal⟩ := digits?_eq_some found
    have notZero : digits.head? ≠ some '0' := by
      intro head
      obtain ⟨others, rfl⟩ := List.head?_eq_some_iff.mp head
      exact noZero _ rfl
    obtain ⟨whole, _, same⟩ := decimal.exists_decimalDigits notZero
    exact ⟨rfl, whole, same⟩

theorem skipFraction?_eq_some {marked : Bool}
    (found : skipFraction? text = some (marked, rest)) :
    ∃ fraction, text = fraction ++ rest ∧ Fraction fraction ∧
      marked = !fraction.isEmpty := by
  unfold skipFraction? at found
  split at found
  · obtain ⟨inner, read, ⟨⟩⟩ := Option.map_eq_some_iff.mp found
    obtain ⟨rfl, decimal⟩ := digits?_eq_some read
    exact ⟨_, rfl, .present decimal, rfl⟩
  · cases found
    exact ⟨[], rfl, .absent, rfl⟩

theorem exists_sign (text : List Char) :
    ∃ sign, text = sign ++ skipSign text ∧
      (sign = [] ∨ sign = ['+'] ∨ sign = ['-']) := by
  unfold skipSign
  split
  · exact ⟨['+'], rfl, .inr (.inl rfl)⟩
  · exact ⟨['-'], rfl, .inr (.inr rfl)⟩
  · exact ⟨[], rfl, .inl rfl⟩

theorem exponent_of_digits? {mark : Char} (marks : mark = 'e' ∨ mark = 'E')
    (found : digits? (skipSign text) = some (digits, rest)) :
    ∃ exponent, mark :: text = exponent ++ rest ∧ Exponent exponent ∧
      true = !exponent.isEmpty := by
  obtain ⟨sign, whole, signs⟩ := exists_sign text
  obtain ⟨same, decimal⟩ := digits?_eq_some found
  refine ⟨mark :: (sign ++ digits), ?_, .present marks signs decimal, rfl⟩
  rw [whole, same]
  simp

theorem skipExponent?_eq_some {marked : Bool}
    (found : skipExponent? text = some (marked, rest)) :
    ∃ exponent, text = exponent ++ rest ∧ Exponent exponent ∧
      marked = !exponent.isEmpty := by
  unfold skipExponent? at found
  split at found
  · obtain ⟨inner, read, ⟨⟩⟩ := Option.map_eq_some_iff.mp found
    exact exponent_of_digits? (.inl rfl) read
  · obtain ⟨inner, read, ⟨⟩⟩ := Option.map_eq_some_iff.mp found
    exact exponent_of_digits? (.inr rfl) read
  · cases found
    exact ⟨[], rfl, .absent, rfl⟩

theorem readUnsigned?_eq_some {negative : Bool}
    (found : readUnsigned? negative text = some (denoted?, rest)) :
    ∃ whole fraction exponent,
      text = Numeral.decimalDigits whole ++ (fraction ++ exponent) ++ rest ∧
        Fraction fraction ∧ Exponent exponent ∧
        denoted? = if fraction ++ exponent = [] then
            integer? negative (Numeral.decimalDigits whole)
          else none := by
  unfold readUnsigned? at found
  split at found
  · contradiction
  next wholeFound =>
    obtain ⟨rfl, whole, rfl⟩ := wholePart?_eq_some wholeFound
    split at found
    · contradiction
    next fractionFound =>
      obtain ⟨fraction, rfl, behindPoint, rfl⟩ :=
        skipFraction?_eq_some fractionFound
      split at found
      · contradiction
      next exponentFound =>
        obtain ⟨exponent, rfl, behindMark, rfl⟩ :=
          skipExponent?_eq_some exponentFound
        refine ⟨whole, fraction, exponent, ?_, behindPoint, behindMark, ?_⟩
        · cases fraction <;> cases exponent <;> cases found <;> simp
        · cases fraction <;> cases exponent <;> cases found <;> rfl

/-- An unsigned number with its sign before it is a number. -/
theorem written_of_parts (negative : Bool) (whole : Nat)
    (behindPoint : Fraction fraction) (behindMark : Exponent exponent) :
    Written
      (if fraction ++ exponent = [] then
          integer? negative (Numeral.decimalDigits whole)
        else none)
      ((if negative then ['-'] else []) ++
        (Numeral.decimalDigits whole ++ (fraction ++ exponent))) := by
  split
  · next plain =>
    rw [plain, List.append_nil, integer?, Numeral.value?_decimalDigits]
    have written := Written.integer
    simp only [Numeral.toList_ofInt] at written
    cases negative with
    | false => exact written (.ofNat whole)
    | true =>
        cases whole with
        | zero =>
            rw [Numeral.decimalDigits_zero]
            exact .negativeZero
        | succ predecessor => exact written (.negSucc predecessor)
  · next marked =>
    refine .fractional whole ?_ behindPoint behindMark marked
    cases negative
    · exact .inl rfl
    · exact .inr rfl

/-- What is read as a number is one of its texts. -/
theorem read?_eq_some (found : read? text = some (denoted?, rest)) :
    ∃ number, text = number ++ rest ∧ Written denoted? number := by
  unfold read? at found
  split at found
  · obtain ⟨whole, fraction, exponent, rfl, behindPoint, behindMark, rfl⟩ :=
      readUnsigned?_eq_some found
    exact ⟨_, rfl, written_of_parts true whole behindPoint behindMark⟩
  · obtain ⟨whole, fraction, exponent, rfl, behindPoint, behindMark, rfl⟩ :=
      readUnsigned?_eq_some found
    exact ⟨_, rfl, written_of_parts false whole behindPoint behindMark⟩

end Json.Number

end MiniMips
