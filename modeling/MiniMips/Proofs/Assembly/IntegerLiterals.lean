import Mathlib.Data.Int.ModEq
import Mathlib.Data.Nat.Digits.Lemmas
import MiniMips.Proofs.Assembly.Reading
import MiniMips.Proofs.LetterCase
import MiniMips.Proofs.Numeral

/-!
Contract: the grammar of integer literals.

Owns:
- the digits of a radix and the numbers that they write, by their place values;
- the literals of an integer, as a relation, and that reading inverts it;
- which literals are words, which are out of range, and which are none;
- what a literal becomes where the reading of a text meets it.
-/

namespace MiniMips

variable {radix number value : Nat} {character : Char} {digits : List Char}

namespace Numeral

/-- The digits of the radixes up to sixteen, in the order of their values. -/
def digitCharacters : List Char := "0123456789abcdef".toList

/-- Whether a character is the digit of a value.  Letters may be of either
case. -/
def IsDigit (radix : Nat) (character : Char) (value : Nat) : Prop :=
  value < radix ∧ digitCharacters[value]? = some character.toLower

/-- Whether digits, most significant first, write a number. -/
def Writes (radix : Nat) (digits : List Char) (number : Nat) : Prop :=
  digits ≠ [] ∧ ∃ values, List.Forall₂ (IsDigit radix) digits values ∧
    number = Nat.ofDigits radix values.reverse

/-! ## Digits -/

theorem digitCharacters_decimal :
    ∀ value < 10, digitCharacters[value]? = some (Char.ofNat (48 + value)) := by
  decide +kernel

theorem digitCharacters_letter :
    ∀ value < 16, 10 ≤ value →
      digitCharacters[value]? = some (Char.ofNat (87 + value)) := by
  decide +kernel

theorem char_eq_ofNat_iff {code : Nat} (small : code < 128) :
    Char.ofNat code = character ↔ character.toNat = code := by
  have valid : code.isValidChar := .inl (by omega)
  constructor
  · rintro rfl
    rw [Char.ofNat, dif_pos valid]
    rfl
  · rintro rfl
    exact Char.ofNat_toNat character

/-- The digits in the order of their values, by their codes. -/
theorem digitCharacters_eq_some_iff :
    digitCharacters[value]? = some character ↔
      (value < 10 ∧ character.toNat = 48 + value) ∨
        (10 ≤ value ∧ value < 16 ∧ character.toNat = 87 + value) := by
  by_cases decimal : value < 10
  · rw [digitCharacters_decimal value decimal, Option.some.injEq,
      char_eq_ofNat_iff (by omega)]
    omega
  · by_cases letter : value < 16
    · rw [digitCharacters_letter value letter (Nat.le_of_not_lt decimal),
        Option.some.injEq, char_eq_ofNat_iff (by omega)]
      omega
    · have none : digitCharacters[value]? = none :=
        List.getElem?_eq_none (Nat.le_of_not_lt letter)
      rw [none]
      simp only [reduceCtorEq, false_iff]
      omega

/-- The value of a digit, by its code. -/
theorem digitValue?_eq_some_iff_of_not_isUpper
    (noUpper : character.isUpper = false) :
    digitValue? radix character = some value ↔ value < radix ∧
      ((48 ≤ character.toNat ∧ character.toNat ≤ 57 ∧
          character.toNat - 48 = value) ∨
        (97 ≤ character.toNat ∧ character.toNat ≤ 122 ∧
          character.toNat - 97 + 10 = value)) := by
  have digit : character.isDigit = true ↔
      48 ≤ character.toNat ∧ character.toNat ≤ 57 := by
    simp [Char.isDigit, UInt32.le_iff_toNat_le]
  have lower := @isLower_iff character
  simp only [digitValue?, noUpper, Option.filter_eq_some_iff,
    decide_eq_true_eq, Bool.false_eq_true, if_false]
  rw [and_comm]
  refine and_congr_right fun _ => ?_
  by_cases isDigit : character.isDigit = true
  · have bounds := digit.mp isDigit
    rw [if_pos isDigit, Option.some.injEq]
    show character.toNat - 48 = value ↔ _
    omega
  · have noBounds := mt digit.mpr isDigit
    rw [if_neg isDigit]
    by_cases isLower : character.isLower = true
    · have bounds := lower.mp isLower
      rw [if_pos isLower, Option.some.injEq]
      show character.toNat - 97 + 10 = value ↔ _
      omega
    · have noLower := mt lower.mpr isLower
      rw [if_neg isLower]
      simp only [reduceCtorEq, false_iff]
      omega

theorem digitValue?_eq_some_iff (bounded : radix ≤ 16) :
    digitValue? radix character = some value ↔
      IsDigit radix character value := by
  rw [IsDigit, ← digitValue?_toLower,
    digitValue?_eq_some_iff_of_not_isUpper (isUpper_toLower character),
    digitCharacters_eq_some_iff]
  refine and_congr_right fun inside => ?_
  omega

/-! ## Numbers -/

/-- One more digit before others has the place value that their number gives
it. -/
theorem ofDigits_reverse_cons (radix value : Nat) (values : List Nat) :
    Nat.ofDigits radix (value :: values).reverse =
      Nat.ofDigits radix values.reverse + radix ^ values.length * value := by
  rw [List.reverse_cons, Nat.ofDigits_append, Nat.ofDigits_singleton,
    List.length_reverse]

theorem appendDigit_eq_some_iff (bounded : radix ≤ 16)
    (accumulated : Nat) :
    appendDigit radix accumulated character = some number ↔
      ∃ value, IsDigit radix character value ∧
        number = accumulated * radix + value := by
  rw [appendDigit, Option.map_eq_some_iff]
  refine exists_congr fun value => ?_
  rw [digitValue?_eq_some_iff bounded, eq_comm]

/-- Digits continue a number by their place values. -/
theorem foldlM_appendDigit_eq_some_iff (bounded : radix ≤ 16)
    (accumulated : Nat) :
    digits.foldlM (appendDigit radix) accumulated = some number ↔
      ∃ values, List.Forall₂ (IsDigit radix) digits values ∧
        number = Nat.ofDigits radix values.reverse +
          radix ^ values.length * accumulated := by
  induction digits generalizing accumulated with
  | nil => simp [eq_comm]
  | cons character digits inductionHypothesis =>
      -- What was read before is moved up by this digit and then by the others.
      have placed : ∀ value (values : List Nat),
          Nat.ofDigits radix values.reverse +
              radix ^ values.length * (accumulated * radix + value) =
            Nat.ofDigits radix (value :: values).reverse +
              radix ^ (value :: values).length * accumulated := by
        intro value values
        rw [ofDigits_reverse_cons, List.length_cons]
        ring
      rw [List.foldlM_cons, Option.bind_eq_bind, Option.bind_eq_some_iff]
      constructor
      · rintro ⟨next, appended, others⟩
        obtain ⟨value, isDigit, rfl⟩ :=
          (appendDigit_eq_some_iff bounded accumulated).mp appended
        obtain ⟨values, areDigits, rfl⟩ := (inductionHypothesis _).mp others
        exact ⟨value :: values, .cons isDigit areDigits, placed value values⟩
      · rintro ⟨values, areDigits, rfl⟩
        cases areDigits with
        | @cons _ value _ values isDigit areDigits =>
            refine ⟨accumulated * radix + value,
              (appendDigit_eq_some_iff bounded accumulated).mpr
                ⟨value, isDigit, rfl⟩, (inductionHypothesis _).mpr ?_⟩
            exact ⟨values, areDigits, (placed value values).symm⟩

theorem value?_eq_some_iff (bounded : radix ≤ 16) :
    value? radix digits = some number ↔ Writes radix digits number := by
  unfold value? Writes
  cases digits with
  | nil => simp
  | cons first more =>
      rw [List.isEmpty_cons, if_neg Bool.false_ne_true,
        foldlM_appendDigit_eq_some_iff bounded]
      simp only [Nat.mul_zero, Nat.add_zero, ne_eq, reduceCtorEq,
        not_false_eq_true, true_and]

end Numeral

/-! ## Literals -/

namespace IntegerLiteral

/-- Literals without a sign: decimal digits, or hexadecimal digits after a
radix mark. -/
inductive Unsigned : List Char → Nat → Prop where
  | decimal {digits : List Char} {number : Nat}
      (writes : Numeral.Writes 10 digits number) : Unsigned digits number
  | hexadecimal {mark : Char} {digits : List Char} {number : Nat}
      (marked : mark = 'x' ∨ mark = 'X')
      (writes : Numeral.Writes 16 digits number) :
      Unsigned ('0' :: mark :: digits) number

/-- The literals of an integer: at most one sign stands before the literal of
its magnitude. -/
inductive Denotes : List Char → Int → Prop where
  | unsigned {text : List Char} {number : Nat}
      (unsigned : Unsigned text number) : Denotes text number
  | plus {text : List Char} {number : Nat}
      (unsigned : Unsigned text number) : Denotes ('+' :: text) number
  | minus {text : List Char} {number : Nat}
      (unsigned : Unsigned text number) : Denotes ('-' :: text) (-number)

variable {text : List Char} {value : Int} {word : Int32}

theorem isDigit_of_writes (writes : Numeral.Writes 10 digits number) :
    ∀ character ∈ digits, character.isDigit = true := by
  obtain ⟨_, values, areDigits, _⟩ := writes
  clear * - areDigits
  induction areDigits with
  | nil => simp
  | @cons character value digits values isDigit _ inductionHypothesis =>
      obtain ⟨small, listed⟩ := isDigit
      refine List.forall_mem_cons.mpr ⟨?_, inductionHypothesis⟩
      rw [Numeral.digitCharacters_decimal value small] at listed
      rw [← isDigit_toLower, ← Option.some.inj listed]
      exact Numeral.isDigit_digitCharacter value small

theorem magnitude?_eq_some_iff :
    magnitude? text = some number ↔ Unsigned text number := by
  constructor
  · intro reads
    by_cases marked : ∃ mark digits, text = '0' :: mark :: digits ∧
        mark.toLower = 'x'
    · obtain ⟨mark, digits, rfl, isMark⟩ := marked
      rw [magnitude?_of_marked digits isMark,
        Numeral.value?_eq_some_iff (by decide)] at reads
      exact .hexadecimal (toLower_eq_x_iff.mp isMark) reads
    · rw [magnitude?_of_unmarked
          (fun mark digits cut isMark => marked ⟨mark, digits, cut, isMark⟩),
        Numeral.value?_eq_some_iff (by decide)] at reads
      exact .decimal reads
  · intro unsigned
    cases unsigned with
    | decimal writes =>
        rw [magnitude?_of_isDigit (isDigit_of_writes writes)]
        exact (Numeral.value?_eq_some_iff (by decide)).mpr writes
    | hexadecimal marked writes =>
        rw [magnitude?_of_marked _ (toLower_eq_x_iff.mpr marked)]
        exact (Numeral.value?_eq_some_iff (by decide)).mpr writes

theorem Unsigned.head_isDigit (unsigned : Unsigned text number) :
    ∀ first ∈ text.head?, first.isDigit = true := by
  cases unsigned with
  | decimal writes =>
      exact fun first member =>
        isDigit_of_writes writes first (List.mem_of_mem_head? member)
  | hexadecimal marked writes =>
      rintro first ⟨⟩
      rfl

/-- What a sign denotes is decided by what stands after it. -/
theorem denotes_minus_iff :
    Denotes ('-' :: text) value ↔
      ∃ number, Unsigned text number ∧ value = -(number : Int) := by
  constructor
  · intro denotes
    cases denotes with
    | unsigned unsigned => exact absurd (unsigned.head_isDigit '-' rfl) (by decide)
    | minus unsigned => exact ⟨_, unsigned, rfl⟩
  · rintro ⟨number, unsigned, rfl⟩
    exact .minus unsigned

theorem denotes_plus_iff :
    Denotes ('+' :: text) value ↔
      ∃ number, Unsigned text number ∧ value = number := by
  constructor
  · intro denotes
    cases denotes with
    | unsigned unsigned => exact absurd (unsigned.head_isDigit '+' rfl) (by decide)
    | plus unsigned => exact ⟨_, unsigned, rfl⟩
  · rintro ⟨number, unsigned, rfl⟩
    exact .plus unsigned

theorem denotes_unsigned_iff
    (noMinus : ∀ first ∈ text.head?, first ≠ '-')
    (noPlus : ∀ first ∈ text.head?, first ≠ '+') :
    Denotes text value ↔ ∃ number, Unsigned text number ∧ value = number := by
  constructor
  · intro denotes
    cases denotes with
    | unsigned unsigned => exact ⟨_, unsigned, rfl⟩
    | plus unsigned => exact absurd rfl (noPlus '+' rfl)
    | minus unsigned => exact absurd rfl (noMinus '-' rfl)
  · rintro ⟨number, unsigned, rfl⟩
    exact .unsigned unsigned

theorem signedValue?_minus (text : List Char) :
    signedValue? ('-' :: text) =
      (magnitude? text).map (fun number : Nat => -(number : Int)) := by
  rw [signedValue?]
  cases magnitude? text <;> rfl

theorem map_magnitude?_eq_some_iff {signed : Nat → Int} :
    (magnitude? text).map signed = some value ↔
      ∃ number, Unsigned text number ∧ value = signed number := by
  rw [Option.map_eq_some_iff]
  refine exists_congr fun number => ?_
  rw [magnitude?_eq_some_iff, eq_comm]

theorem signedValue?_eq_some_iff :
    signedValue? text = some value ↔ Denotes text value := by
  cases text with
  | nil =>
      rw [signedValue?_of_unsigned (by simp) (by simp),
        denotes_unsigned_iff (by simp) (by simp)]
      exact map_magnitude?_eq_some_iff
  | cons first rest =>
      by_cases minus : first = '-'
      · rw [minus, signedValue?_minus, denotes_minus_iff]
        exact map_magnitude?_eq_some_iff
      by_cases plus : first = '+'
      · rw [plus, signedValue?, denotes_plus_iff]
        exact map_magnitude?_eq_some_iff
      rw [signedValue?_of_unsigned (by simpa using minus) (by simpa using plus),
        denotes_unsigned_iff (by simpa using minus) (by simpa using plus)]
      exact map_magnitude?_eq_some_iff

theorem signedValue?_eq_none_iff :
    signedValue? text = none ↔ ¬∃ value, Denotes text value := by
  simp only [Option.eq_none_iff_forall_ne_some, ne_eq,
    signedValue?_eq_some_iff, not_exists]

/-- A literal has one value at most. -/
theorem Denotes.unique {other : Int} (denotes : Denotes text value)
    (denotesOther : Denotes text other) : other = value := by
  rw [← signedValue?_eq_some_iff] at denotes denotesOther
  exact Option.some.inj (denotesOther.symm.trans denotes)

/-! ## Words -/

/-- The values that the literals of words have: those of signed and of unsigned
words. -/
def IsWordValue (value : Int) : Prop :=
  -2 ^ 31 ≤ value ∧ value ≤ 2 ^ 32 - 1
deriving Decidable

theorem fitsWord_eq_true_iff : fitsWord value = true ↔ IsWordValue value := by
  rw [fitsWord, decide_eq_true_eq, IsWordValue]
  omega

/-- One word is congruent to a value. -/
theorem ofInt_eq_iff :
    Int32.ofInt value = word ↔ value ≡ word.toInt [ZMOD 2 ^ 32] := by
  constructor
  · rintro rfl
    rw [Int32.toInt_ofInt]
    exact (Int.bmod_emod).symm
  · intro congruent
    have sameRest : value % 2 ^ 32 = word.toInt % 2 ^ 32 := congruent
    rw [← Int32.toInt_inj, Int32.toInt_ofInt, ← Int32.toInt_bmod word]
    show value.bmod (2 ^ 32 : Nat) = word.toInt.bmod (2 ^ 32 : Nat)
    rw [← Int.emod_bmod value, ← Int.emod_bmod word.toInt]
    exact congrArg (Int.bmod · _) sameRest

theorem read_eq_ok_iff :
    read text = .ok word ↔ ∃ value, Denotes text value ∧ IsWordValue value ∧
      value ≡ word.toInt [ZMOD 2 ^ 32] := by
  constructor
  · intro reads
    unfold read at reads
    split at reads
    next => cases reads
    next value signed =>
      split at reads
      next fits =>
        cases reads
        exact ⟨value, signedValue?_eq_some_iff.mp signed,
          fitsWord_eq_true_iff.mp fits, ofInt_eq_iff.mp rfl⟩
      next => cases reads
  · rintro ⟨value, denotes, fits, congruent⟩
    rw [read, signedValue?_eq_some_iff.mpr denotes]
    dsimp only
    rw [if_pos (fitsWord_eq_true_iff.mpr fits), ofInt_eq_iff.mpr congruent]

theorem read_eq_outOfRange_iff :
    read text = .error .outOfRange ↔
      ∃ value, Denotes text value ∧ ¬IsWordValue value := by
  constructor
  · intro reads
    unfold read at reads
    split at reads
    next => cases reads
    next value signed =>
      split at reads
      next => cases reads
      next large =>
        exact ⟨value, signedValue?_eq_some_iff.mp signed,
          fun fits => large (fitsWord_eq_true_iff.mpr fits)⟩
  · rintro ⟨value, denotes, large⟩
    rw [read, signedValue?_eq_some_iff.mpr denotes]
    dsimp only
    rw [if_neg (fun fits => large (fitsWord_eq_true_iff.mp fits))]

theorem read_eq_malformed_iff :
    read text = .error .malformed ↔ ¬∃ value, Denotes text value := by
  rw [← signedValue?_eq_none_iff, read]
  split
  next none => simp [none]
  next value signed =>
    rw [signed]
    split <;> simp

end IntegerLiteral

/-! ## Literals in a text -/

namespace Lexeme

variable {mnemonicSeen : Bool} {lexeme : Lexeme} {literal : List Char}

/-- What is refused as an integer out of range is read so by itself. -/
theorem read_of_integerOutOfRange
    (fails : lexeme.tokenKind mnemonicSeen =
      .error (.integerOutOfRange (String.ofList literal))) :
    IntegerLiteral.read literal = .error .outOfRange := by
  cases lexeme with
  | integer text =>
      rw [tokenKind] at fails
      split at fails
      next => cases fails
      next => cases fails
      next large =>
        cases String.ofList_inj.mp (LexFault.integerOutOfRange.inj
          (Except.error.inj fails))
        exact large
  | register name =>
      rw [tokenKind] at fails
      split at fails <;> cases fails
  | word name =>
      rw [tokenKind] at fails
      split at fails <;> cases fails
  | _ => cases fails

/-- What is refused as no token, and could be a literal, is malformed as one. -/
theorem read_of_unrecognizedToken (proper : lexeme.isProper = true)
    (isLiteral : isLiteral literal = true)
    (fails : lexeme.tokenKind mnemonicSeen =
      .error (.unrecognizedToken (String.ofList literal))) :
    IntegerLiteral.read literal = .error .malformed := by
  cases lexeme with
  | integer text =>
      rw [tokenKind] at fails
      split at fails
      next => cases fails
      next malformed =>
        cases String.ofList_inj.mp (LexFault.unrecognizedToken.inj
          (Except.error.inj fails))
        exact malformed
      next => cases fails
  | stray character =>
      cases String.ofList_inj.mp (LexFault.unrecognizedToken.inj
        (Except.error.inj fails))
      have starts : isLiteralStart character = true :=
        (Bool.and_eq_true_iff.mp isLiteral).1
      simp [isProper, starts] at proper
  | register name =>
      rw [tokenKind] at fails
      split at fails <;> cases fails
  | word name =>
      rw [tokenKind] at fails
      split at fails <;> cases fails
  | _ => cases fails

end Lexeme

namespace Reading

/-- A sign or a digit stands where reading is, and `literal` is this character
with all that continues it. -/
structure Meets (reading : Reading) (literal back : List Char) : Prop where
  rest_eq : reading.rest = literal ++ back
  isLiteral : isLiteral literal = true
  whole : ∀ following ∈ back.head?, isLiteralCharacter following = false

/-- Reading makes a literal an immediate of a word, and goes on behind it. -/
def Yields (reading : Reading) (literal back : List Char) (word : Int32) :
    Prop :=
  reading.step? =
    some (.ok (reading.take (.integer literal) (.immediate word) back))

variable {source : String} {reading : Reading} {literal back : List Char}
  {word : Int32} {lexError : LexError}

theorem Meets.step?_eq (meets : reading.Meets literal back) :
    reading.step? =
      match IntegerLiteral.read literal with
      | .ok word =>
          some (.ok (reading.take (.integer literal) (.immediate word) back))
      | .error .malformed => some (.error ⟨reading.line,
          .unrecognizedToken (String.ofList literal)⟩)
      | .error .outOfRange => some (.error ⟨reading.line,
          .integerOutOfRange (String.ofList literal)⟩) := by
  have proper : (Lexeme.integer literal).isProper = true := meets.isLiteral
  obtain ⟨first, more, text, lexical, cut⟩ :=
    Lexeme.next_of_proper proper meets.whole
  have begins : reading.rest = first :: (more ++ back) := by
    rw [meets.rest_eq, ← List.cons_append]
    exact congrArg (· ++ back) text
  rw [step?_of_lexeme begins lexical cut, Lexeme.tokenKind]
  rcases IntegerLiteral.read literal with (_ | _) | word <;> rfl

theorem Meets.yields_iff (meets : reading.Meets literal back) :
    reading.Yields literal back word ↔
      IntegerLiteral.read literal = .ok word := by
  rw [Yields, meets.step?_eq]
  rcases IntegerLiteral.read literal with (_ | _) | other
  · simp
  · simp
  · simp [take]

theorem Meets.lex_of_malformed (meets : reading.Meets literal back)
    (reached : Reached source reading)
    (malformed : IntegerLiteral.read literal = .error .malformed) :
    lex source =
      .error ⟨reading.line, .unrecognizedToken (String.ofList literal)⟩ := by
  refine reached.lex_of_fault ?_
  rw [meets.step?_eq, malformed]

theorem Meets.lex_of_outOfRange (meets : reading.Meets literal back)
    (reached : Reached source reading)
    (large : IntegerLiteral.read literal = .error .outOfRange) :
    lex source =
      .error ⟨reading.line, .integerOutOfRange (String.ofList literal)⟩ := by
  refine reached.lex_of_fault ?_
  rw [meets.step?_eq, large]

/-- The fault of a text is that of a lexeme which a cut can yield. -/
theorem exists_lexeme_of_fault (fails : lex source = .error lexError) :
    ∃ (lexeme : Lexeme) (mnemonicSeen : Bool), lexeme.isProper = true ∧
      lexeme.tokenKind mnemonicSeen = .error lexError.fault := by
  obtain ⟨last, _, step⟩ := exists_fault_of_lex fails
  obtain ⟨_, _, _, _, result⟩ | ⟨_, _, _, _, result⟩ |
      ⟨first, rest, _, lexical, ⟨fault, means, result⟩ | ⟨_, _, result⟩⟩ :=
    step?_cases step
  · cases result
  · cases result
  · cases result
    exact ⟨_, _, (Lexeme.next_spec lexical).1, means⟩
  · cases result

/-- **Integer literals.**  Where reading meets a literal, it makes it an
immediate exactly if the literal denotes the value of a word, and then the
immediate is the only word that is congruent to this value.  It refuses the
text with the whole literal and its line otherwise: as out of range if the
literal denotes another value, and as no token if it denotes none. -/
theorem literal_becomes (source : String) (reading : Reading)
    (literal back : List Char) (reached : Reached source reading)
    (meets : reading.Meets literal back) :
    ((∃ word, reading.Yields literal back word) ↔
      ∃ value, IntegerLiteral.Denotes literal value ∧
        IntegerLiteral.IsWordValue value) ∧
    (∀ word value, reading.Yields literal back word →
      IntegerLiteral.Denotes literal value →
      ∀ other : Int32, value ≡ other.toInt [ZMOD 2 ^ 32] ↔ other = word) ∧
    (lex source =
        .error ⟨reading.line, .integerOutOfRange (String.ofList literal)⟩ ↔
      ∃ value, IntegerLiteral.Denotes literal value ∧
        ¬IntegerLiteral.IsWordValue value) ∧
    (lex source =
        .error ⟨reading.line, .unrecognizedToken (String.ofList literal)⟩ ↔
      ¬∃ value, IntegerLiteral.Denotes literal value) ∧
    ∀ tokens, lex source = .ok tokens → ∃ word,
      reading.Yields literal back word ∧
        reading.tokens ++
          [⟨.immediate word, String.ofList literal, reading.line⟩] <+:
            tokens := by
  refine ⟨?_, ?_, ?_, ?_, ?_⟩
  · constructor
    · rintro ⟨word, yields⟩
      obtain ⟨value, denotes, fits, _⟩ :=
        IntegerLiteral.read_eq_ok_iff.mp (meets.yields_iff.mp yields)
      exact ⟨value, denotes, fits⟩
    · rintro ⟨value, denotes, fits⟩
      refine ⟨Int32.ofInt value, meets.yields_iff.mpr ?_⟩
      exact IntegerLiteral.read_eq_ok_iff.mpr
        ⟨value, denotes, fits, IntegerLiteral.ofInt_eq_iff.mp rfl⟩
  · intro word value yields denotes other
    obtain ⟨same, denotesSame, _, congruent⟩ :=
      IntegerLiteral.read_eq_ok_iff.mp (meets.yields_iff.mp yields)
    cases denotes.unique denotesSame
    rw [← IntegerLiteral.ofInt_eq_iff,
      IntegerLiteral.ofInt_eq_iff.mpr congruent, eq_comm]
  · -- The fault names the literal by its text, so it is about a literal that
    -- is read as this one is, wherever it stands.
    rw [← IntegerLiteral.read_eq_outOfRange_iff]
    refine ⟨fun fails => ?_, meets.lex_of_outOfRange reached⟩
    obtain ⟨lexeme, mnemonicSeen, _, means⟩ := exists_lexeme_of_fault fails
    exact Lexeme.read_of_integerOutOfRange means
  · rw [← IntegerLiteral.read_eq_malformed_iff]
    refine ⟨fun fails => ?_, meets.lex_of_malformed reached⟩
    obtain ⟨lexeme, mnemonicSeen, proper, means⟩ :=
      exists_lexeme_of_fault fails
    exact Lexeme.read_of_unrecognizedToken proper meets.isLiteral means
  · intro tokens reads
    cases read : IntegerLiteral.read literal with
    | ok word =>
        have yields := meets.yields_iff.mpr read
        exact ⟨word, yields, (reached.step yields).begins_tokens reads⟩
    | error fault =>
        cases fault with
        | malformed =>
            cases reads.symm.trans (meets.lex_of_malformed reached read)
        | outOfRange =>
            cases reads.symm.trans (meets.lex_of_outOfRange reached read)

/-- A hexadecimal literal above the signed range, behind a mnemonic. -/
theorem literal_becomes_minus_one :
    ∃ reading, Reached "li +0XffFFffff" reading ∧
      reading.Meets "+0XffFFffff".toList [] ∧
      reading.Yields "+0XffFFffff".toList [] (-1) := by
  let line : Reading :=
    (start "li +0XffFFffff").beginLine "li +0XffFFffff".toList []
  let behind : Reading :=
    line.take (.word ['l', 'i']) (.mnemonic "li") " +0XffFFffff".toList
  let reading : Reading := behind.skip "+0XffFFffff".toList
  have first : (start "li +0XffFFffff").step? = some (.ok line) := by
    decide +kernel
  have second : line.step? = some (.ok behind) := by decide +kernel
  have third : behind.step? = some (.ok reading) := by decide +kernel
  have reached : Reached "li +0XffFFffff" reading :=
    ((Reached.start.step first).step second).step third
  have meets : reading.Meets "+0XffFFffff".toList [] :=
    ⟨rfl, by decide +kernel, by simp⟩
  have denotes :
      IntegerLiteral.Denotes "+0XffFFffff".toList 0xFFFFFFFF :=
    IntegerLiteral.signedValue?_eq_some_iff.mp (by decide +kernel)
  have fits : IntegerLiteral.IsWordValue 0xFFFFFFFF := by decide
  obtain ⟨becomes, unique, _⟩ :=
    literal_becomes "li +0XffFFffff" reading _ _ reached meets
  obtain ⟨word, yields⟩ := becomes.mpr ⟨_, denotes, fits⟩
  have minusOne := (unique word _ yields denotes (-1)).mp (by decide)
  exact ⟨reading, reached, meets, minusOne ▸ yields⟩

end Reading

end MiniMips
