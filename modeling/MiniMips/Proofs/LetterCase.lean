import MiniMips.Assembly.IntegerLiteral
import MiniMips.Opcode
import MiniMips.Proofs.Assembly.Lexemes
import MiniMips.Register

/-!
Contract: letters of either case.

Owns:
- texts that are the same but for the case of their letters;
- that no class of characters tells the two cases of a letter apart;
- that digits, integer literals, register names and mnemonics are read alike in
  either case.

Does not own: the names of labels, which are compared as they are written.
-/

namespace MiniMips

/-- The same characters, with letters in either case. -/
def SameLetters (text other : List Char) : Prop :=
  other.map Char.toLower = text.map Char.toLower
deriving Decidable

variable {character other mark : Char} {text otherText : List Char}

/-! ## Codes -/

theorem isUpper_iff :
    character.isUpper = true ↔
      65 ≤ character.toNat ∧ character.toNat ≤ 90 :=
  decide_eq_true_iff.trans
    (and_congr UInt32.le_iff_toNat_le UInt32.le_iff_toNat_le)

theorem isLower_iff :
    character.isLower = true ↔
      97 ≤ character.toNat ∧ character.toNat ≤ 122 :=
  Bool.and_eq_true_iff.trans
    (and_congr (decide_eq_true_iff.trans UInt32.le_iff_toNat_le)
      (decide_eq_true_iff.trans UInt32.le_iff_toNat_le))

theorem toLower_of_not_isUpper (noUpper : ¬character.isUpper = true) :
    character.toLower = character :=
  dif_neg (mt decide_eq_true noUpper)

theorem toNat_toLower (upper : character.isUpper = true) :
    character.toLower.toNat = character.toNat + 32 := by
  have bounds := isUpper_iff.mp upper
  have shifted : character.toLower.val = character.val + 32 :=
    congrArg Char.val (dif_pos (of_decide_eq_true upper))
  have small : character.val.toNat + 32 < 2 ^ 32 := by
    show character.toNat + 32 < 2 ^ 32
    omega
  show character.toLower.val.toNat = character.val.toNat + 32
  rw [shifted, UInt32.toNat_add]
  exact Nat.mod_eq_of_lt small

/-! ## Characters -/

theorem isLower_toLower (upper : character.isUpper = true) :
    character.toLower.isLower = true := by
  have bounds := isUpper_iff.mp upper
  rw [isLower_iff, toNat_toLower upper]
  omega

theorem isUpper_toLower (character : Char) :
    character.toLower.isUpper = false := by
  by_cases upper : character.isUpper = true
  · have bounds := isUpper_iff.mp upper
    refine Bool.eq_false_iff.mpr fun stillUpper => ?_
    have lowerBounds := isUpper_iff.mp stillUpper
    rw [toNat_toLower upper] at lowerBounds
    omega
  · rw [toLower_of_not_isUpper upper]
    exact Bool.eq_false_iff.mpr upper

theorem toLower_toLower (character : Char) :
    character.toLower.toLower = character.toLower :=
  toLower_of_not_isUpper (Bool.eq_false_iff.mp (isUpper_toLower character))

theorem isAlpha_of_isUpper (upper : character.isUpper = true) :
    character.isAlpha = true ∧ character.toLower.isAlpha = true :=
  ⟨Bool.or_eq_true_iff.mpr (.inl upper),
    Bool.or_eq_true_iff.mpr (.inr (isLower_toLower upper))⟩

theorem isAlpha_toLower (character : Char) :
    character.toLower.isAlpha = character.isAlpha := by
  by_cases upper : character.isUpper = true
  · obtain ⟨alpha, alphaLower⟩ := isAlpha_of_isUpper upper
    rw [alpha, alphaLower]
  · rw [toLower_of_not_isUpper upper]

/-- A class that holds of all letters or of none does not depend on case. -/
theorem class_toLower {accepts : Char → Bool} (value : Bool)
    (letters : ∀ letter : Char, letter.isAlpha = true →
      accepts letter = value) (character : Char) :
    accepts character.toLower = accepts character := by
  by_cases upper : character.isUpper = true
  · obtain ⟨alpha, alphaLower⟩ := isAlpha_of_isUpper upper
    rw [letters _ alpha, letters _ alphaLower]
  · rw [toLower_of_not_isUpper upper]

theorem isNameStart_toLower (character : Char) :
    isNameStart character.toLower = isNameStart character :=
  class_toLower true (fun letter alpha => by simp [isNameStart, alpha])
    character

theorem isNameCharacter_toLower (character : Char) :
    isNameCharacter character.toLower = isNameCharacter character :=
  class_toLower true
    (fun letter alpha => by simp [isNameCharacter, Char.isAlphanum, alpha])
    character

theorem isLiteralCharacter_toLower (character : Char) :
    isLiteralCharacter character.toLower = isLiteralCharacter character :=
  class_toLower true
    (fun letter alpha => by simp [isLiteralCharacter, Char.isAlphanum, alpha])
    character

theorem isLiteralStart_toLower (character : Char) :
    isLiteralStart character.toLower = isLiteralStart character := by
  refine class_toLower false (fun letter alpha => ?_) character
  exact isLiteralStart_of_isNameStart (by simp [isNameStart, alpha])

theorem isDigit_toLower (character : Char) :
    character.toLower.isDigit = character.isDigit := by
  refine @class_toLower Char.isDigit false (fun letter alpha => ?_) character
  refine Bool.eq_false_iff.mpr fun digit => ?_
  rw [isAlpha_of_isDigit digit] at alpha
  contradiction

/-- No letter becomes another kind of character in lower case. -/
theorem toLower_eq_iff (noLetter : mark.isAlpha = false) :
    character.toLower = mark ↔ character = mark := by
  by_cases upper : character.isUpper = true
  · obtain ⟨alpha, alphaLower⟩ := isAlpha_of_isUpper upper
    constructor
    · rintro rfl
      rw [alphaLower] at noLetter
      contradiction
    · rintro rfl
      rw [alpha] at noLetter
      contradiction
  · rw [toLower_of_not_isUpper upper]

theorem beq_toLower (noLetter : mark.isAlpha = false) (character : Char) :
    (character.toLower == mark) = (character == mark) := by
  rw [Bool.eq_iff_iff, beq_iff_eq, beq_iff_eq, toLower_eq_iff noLetter]

/-! ## Texts -/

theorem SameLetters.refl (text : List Char) : SameLetters text text :=
  rfl

theorem SameLetters.symm (same : SameLetters text otherText) :
    SameLetters otherText text :=
  Eq.symm same

theorem sameLetters_cons_iff :
    SameLetters (character :: text) (other :: otherText) ↔
      other.toLower = character.toLower ∧ SameLetters text otherText := by
  simp [SameLetters]

theorem SameLetters.exists_cons
    (same : SameLetters (character :: text) otherText) :
    ∃ first rest, otherText = first :: rest ∧
      first.toLower = character.toLower ∧ SameLetters text rest := by
  obtain ⟨first, rest, rfl, head, tail⟩ := List.map_eq_cons_iff.mp same
  exact ⟨first, rest, rfl, head, tail⟩

/-- A text that begins with no letter stays one. -/
theorem SameLetters.exists_cons_mark (noLetter : mark.isAlpha = false)
    (same : SameLetters (mark :: text) otherText) :
    ∃ rest, otherText = mark :: rest ∧ SameLetters text rest := by
  obtain ⟨first, rest, rfl, head, tail⟩ := same.exists_cons
  have markLower : mark.toLower = mark := (toLower_eq_iff noLetter).mpr rfl
  rw [markLower, toLower_eq_iff noLetter] at head
  exact ⟨rest, by rw [head], tail⟩

theorem SameLetters.append {more otherMore : List Char}
    (same : SameLetters text otherText)
    (sameMore : SameLetters more otherMore) :
    SameLetters (text ++ more) (otherText ++ otherMore) := by
  rw [SameLetters, List.map_append, List.map_append, same, sameMore]

/-- Two functions of texts that do not depend on case agree. -/
theorem SameLetters.congr {α : Type} {value : List Char → α}
    (caseless : ∀ text, value (text.map Char.toLower) = value text)
    (same : SameLetters text otherText) : value otherText = value text := by
  rw [← caseless otherText, ← caseless text, same]

theorem all_map_toLower {accepts : Char → Bool}
    (caseless : ∀ character, accepts character.toLower = accepts character)
    (text : List Char) :
    (text.map Char.toLower).all accepts = text.all accepts := by
  rw [List.all_map]
  exact congrArg (text.all ·) (funext caseless)

theorem isName_map_toLower (name : List Char) :
    isName (name.map Char.toLower) = isName name := by
  cases name with
  | nil => rfl
  | cons first more =>
      rw [List.map_cons, isName, isName, isNameStart_toLower,
        all_map_toLower isNameCharacter_toLower]

theorem isLiteral_map_toLower (text : List Char) :
    isLiteral (text.map Char.toLower) = isLiteral text := by
  cases text with
  | nil => rfl
  | cons first more =>
      rw [List.map_cons, isLiteral, isLiteral, isLiteralStart_toLower,
        all_map_toLower isLiteralCharacter_toLower]

/-! ## Lines -/

theorem codeOfLine_map_toLower (text : List Char) :
    codeOfLine (text.map Char.toLower) = (codeOfLine text).map Char.toLower := by
  have sameMark : (fun character => character != '#') ∘ Char.toLower =
      fun character => character != '#' := by
    funext character
    exact congrArg not (beq_toLower (by decide) character)
  rw [codeOfLine, List.takeWhile_map, sameMark, ← codeOfLine]

theorem SameLetters.codeOfLine (same : SameLetters text otherText) :
    SameLetters (codeOfLine text) (codeOfLine otherText) := by
  rw [SameLetters, ← codeOfLine_map_toLower, ← codeOfLine_map_toLower, same]

theorem Lexeme.continues_toLower (lexeme : Lexeme) (character : Char) :
    lexeme.continues character.toLower = lexeme.continues character := by
  cases lexeme with
  | register name => exact isNameCharacter_toLower character
  | integer text => exact isLiteralCharacter_toLower character
  | word name =>
      rw [continues, continues, isNameCharacter_toLower,
        beq_toLower (by decide)]
  | _ => rfl

/-! ## Numerals -/

namespace Numeral

theorem digitValue?_toLower (radix : Nat) (character : Char) :
    digitValue? radix character.toLower = digitValue? radix character := by
  by_cases upper : character.isUpper = true
  · have alpha := (isAlpha_of_isUpper upper).1
    have noDigit : character.isDigit = false := by
      refine Bool.eq_false_iff.mpr fun digit => ?_
      rw [isAlpha_of_isDigit digit] at alpha
      contradiction
    have noLower : character.isLower = false := by
      have bounds := isUpper_iff.mp upper
      refine Bool.eq_false_iff.mpr fun lower => ?_
      have lowerBounds := isLower_iff.mp lower
      omega
    have lower := isLower_toLower upper
    have sameValue : character.toLower.toNat - 'a'.toNat =
        character.toNat - 'A'.toNat := by
      rw [toNat_toLower upper]
      exact Nat.add_sub_add_right character.toNat 32 65
    simp only [digitValue?, isDigit_toLower, noDigit, noLower, lower, upper,
      sameValue, Bool.false_eq_true, if_false, if_true]
  · rw [toLower_of_not_isUpper upper]

theorem value?_map_toLower (radix : Nat) (digits : List Char) :
    value? radix (digits.map Char.toLower) = value? radix digits := by
  have sameDigit : ∀ accumulated character,
      appendDigit radix accumulated (Char.toLower character) =
        appendDigit radix accumulated character := by
    intro accumulated character
    rw [appendDigit, appendDigit, digitValue?_toLower]
  unfold value?
  rw [List.isEmpty_map, List.foldlM_map]
  simp only [sameDigit]

end Numeral

/-! ## Integer literals -/

namespace IntegerLiteral

theorem toLower_eq_x_iff :
    character.toLower = 'x' ↔ character = 'x' ∨ character = 'X' := by
  constructor
  · intro lower
    by_cases upper : character.isUpper = true
    · have code := toNat_toLower upper
      rw [lower] at code
      have same : 'X'.toNat = character.toNat :=
        (Nat.eq_sub_of_add_eq code.symm).symm
      exact .inr (Char.toNat_inj.mp same.symm)
    · rw [toLower_of_not_isUpper upper] at lower
      exact .inl lower
  · rintro (rfl | rfl) <;> rfl

theorem magnitude?_of_marked (digits : List Char)
    (marked : mark.toLower = 'x') :
    magnitude? ('0' :: mark :: digits) = Numeral.value? 16 digits := by
  rcases toLower_eq_x_iff.mp marked with rfl | rfl <;> rfl

theorem magnitude?_of_unmarked
    (unmarked : ∀ mark digits, text = '0' :: mark :: digits →
      mark.toLower ≠ 'x') :
    magnitude? text = Numeral.value? 10 text := by
  unfold magnitude?
  split
  next digits => exact absurd rfl (unmarked 'x' digits rfl)
  next digits => exact absurd rfl (unmarked 'X' digits rfl)
  next => rfl

theorem magnitude?_map_toLower (text : List Char) :
    magnitude? (text.map Char.toLower) = magnitude? text := by
  by_cases marked : ∃ mark digits, text = '0' :: mark :: digits ∧
      mark.toLower = 'x'
  · obtain ⟨mark, digits, rfl, isMark⟩ := marked
    have stillMark : mark.toLower.toLower = 'x' := by
      rw [toLower_toLower, isMark]
    rw [magnitude?_of_marked digits isMark, ← Numeral.value?_map_toLower]
    exact magnitude?_of_marked _ stillMark
  · have unmarked : ∀ mark digits, text = '0' :: mark :: digits →
        mark.toLower ≠ 'x' :=
      fun mark digits cut isMark => marked ⟨mark, digits, cut, isMark⟩
    have unmarkedLower : ∀ mark digits,
        text.map Char.toLower = '0' :: mark :: digits →
          mark.toLower ≠ 'x' := by
      intro mark digits cut
      obtain ⟨zero, rest, rfl, isZero, tail⟩ := List.map_eq_cons_iff.mp cut
      obtain ⟨first, rest, rfl, rfl, _⟩ := List.map_eq_cons_iff.mp tail
      rw [toLower_toLower]
      rw [toLower_eq_iff (by decide)] at isZero
      exact unmarked first rest (by rw [isZero])
    rw [magnitude?_of_unmarked unmarked,
      magnitude?_of_unmarked unmarkedLower, Numeral.value?_map_toLower]

/-- A sign is none in either case. -/
theorem signedValue?_of_unsigned
    (noMinus : ∀ first ∈ text.head?, first ≠ '-')
    (noPlus : ∀ first ∈ text.head?, first ≠ '+') :
    signedValue? text = (magnitude? text).map Int.ofNat := by
  unfold signedValue?
  split
  next => exact absurd rfl (noMinus '-' rfl)
  next => exact absurd rfl (noPlus '+' rfl)
  next => rfl

theorem signedValue?_map_toLower (text : List Char) :
    signedValue? (text.map Char.toLower) = signedValue? text := by
  cases text with
  | nil => rfl
  | cons first rest =>
      have same : ∀ {mark : Char}, mark.isAlpha = false →
          (first.toLower ≠ mark ↔ first ≠ mark) :=
        fun noLetter => not_congr (toLower_eq_iff noLetter)
      by_cases minus : first = '-'
      · have lower : Char.toLower '-' = '-' := by decide
        rw [minus, List.map_cons, lower, signedValue?, signedValue?,
          magnitude?_map_toLower]
      by_cases plus : first = '+'
      · have lower : Char.toLower '+' = '+' := by decide
        rw [plus, List.map_cons, lower, signedValue?, signedValue?,
          magnitude?_map_toLower]
      have noMinus := (@same '-' (by decide)).mpr minus
      have noPlus := (@same '+' (by decide)).mpr plus
      rw [signedValue?_of_unsigned (by simpa using noMinus)
          (by simpa using noPlus),
        signedValue?_of_unsigned (by simpa using minus)
          (by simpa using plus), magnitude?_map_toLower]

theorem read_map_toLower (text : List Char) :
    read (text.map Char.toLower) = read text := by
  rw [read, read, signedValue?_map_toLower]

end IntegerLiteral

/-! ## Names -/

theorem map_toLower_map_toLower (text : List Char) :
    (text.map Char.toLower).map Char.toLower = text.map Char.toLower := by
  rw [List.map_map]
  exact congrArg (text.map ·) (funext toLower_toLower)

theorem Register.ofName?_map_toLower (name : List Char) :
    ofName? (name.map Char.toLower) = ofName? name := by
  unfold ofName?
  rw [all_map_toLower isDigit_toLower, Numeral.value?_map_toLower,
    map_toLower_map_toLower]

theorem Opcode.ofMnemonic?_map_toLower (name : List Char) :
    ofMnemonic? (name.map Char.toLower) = ofMnemonic? name := by
  unfold ofMnemonic?
  rw [map_toLower_map_toLower]

end MiniMips
