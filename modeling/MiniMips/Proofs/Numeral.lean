import MiniMips.Assembly.IntegerLiteral
import MiniMips.Proofs.Assembly.Lexemes

/-!
Contract: numerals read back.

Owns:
- that the decimal digits of a number have its value, and that an integer is
  shown as one literal;
- that no two numbers have one text;
- that the text of a word, as a signed number, is a literal of this word.
-/

namespace MiniMips

namespace Numeral

theorem digitValue?_digitCharacter :
    ∀ value < 10, digitValue? 10 (digitCharacter value) = some value := by
  decide

theorem isDigit_digitCharacter :
    ∀ value < 10, (digitCharacter value).isDigit = true := by
  decide

theorem decimalDigits_ne_nil (value : Nat) : decimalDigits value ≠ [] := by
  rw [decimalDigits]
  split <;> simp

theorem isDigit_of_mem_decimalDigits {value : Nat} {character : Char}
    (member : character ∈ decimalDigits value) :
    character.isDigit = true := by
  fun_induction decimalDigits value with
  | case1 value small =>
      rw [List.mem_singleton.mp member]
      exact isDigit_digitCharacter value small
  | case2 value large inductionHypothesis =>
      rcases List.mem_append.mp member with earlier | last
      · exact inductionHypothesis earlier
      · rw [List.mem_singleton.mp last]
        exact isDigit_digitCharacter _ (Nat.mod_lt _ (by decide))

theorem foldlM_decimalDigits (value : Nat) :
    (decimalDigits value).foldlM (appendDigit 10) 0 = some value := by
  fun_induction decimalDigits value with
  | case1 value small =>
      simp [appendDigit, digitValue?_digitCharacter value small]
  | case2 value large inductionHypothesis =>
      have last := digitValue?_digitCharacter (value % 10)
        (Nat.mod_lt _ (by decide))
      simp [List.foldlM_append, inductionHypothesis, appendDigit, last,
        Nat.div_add_mod']

/-- **Numerals.**  The decimal digits of a number have its value. -/
theorem value?_decimalDigits (value : Nat) :
    value? 10 (decimalDigits value) = some value := by
  have noEmpty : (decimalDigits value).isEmpty = false := by
    simp [decimalDigits_ne_nil]
  rw [value?, noEmpty, if_neg Bool.false_ne_true]
  exact foldlM_decimalDigits value

theorem toList_ofNat (value : Nat) :
    (ofNat value).toList = decimalDigits value :=
  String.toList_ofList

theorem toList_ofNat_ne_nil (value : Nat) : (ofNat value).toList ≠ [] := by
  rw [toList_ofNat]
  exact decimalDigits_ne_nil value

theorem not_mem_ofNat {character : Char}
    (noDigit : character.isDigit = false) (value : Nat) :
    character ∉ (ofNat value).toList := by
  intro member
  rw [toList_ofNat] at member
  rw [isDigit_of_mem_decimalDigits member] at noDigit
  contradiction

theorem ofNat_injective : Function.Injective ofNat := by
  intro value other same
  have digits := congrArg String.toList same
  rw [toList_ofNat, toList_ofNat] at digits
  have read := value?_decimalDigits value
  rw [digits, value?_decimalDigits] at read
  exact (Option.some.inj read).symm

theorem toList_ofInt (value : Int) :
    (ofInt value).toList =
      match value with
      | .ofNat magnitude => decimalDigits magnitude
      | .negSucc predecessor => '-' :: decimalDigits (predecessor + 1) := by
  cases value with
  | ofNat magnitude => exact toList_ofNat magnitude
  | negSucc predecessor =>
      rw [ofInt, String.toList_append, toList_ofNat]
      rfl

theorem toList_ofInt_ne_nil (value : Int) : (ofInt value).toList ≠ [] := by
  rw [toList_ofInt]
  cases value with
  | ofNat magnitude => exact decimalDigits_ne_nil magnitude
  | negSucc predecessor => exact List.cons_ne_nil _ _

/-- No blank stands in the text of an integer. -/
theorem blank_not_mem_ofInt (value : Int) :
    ' ' ∉ (ofInt value).toList := by
  cases value with
  | ofNat magnitude => exact not_mem_ofNat rfl magnitude
  | negSucc predecessor =>
      rw [ofInt, String.toList_append, List.mem_append, not_or]
      exact ⟨by decide, not_mem_ofNat rfl (predecessor + 1)⟩

theorem isLiteralCharacter_of_mem_decimalDigits {value : Nat}
    {character : Char} (member : character ∈ decimalDigits value) :
    isLiteralCharacter character = true := by
  simp [isLiteralCharacter, Char.isAlphanum,
    isDigit_of_mem_decimalDigits member]

/-- The text of an integer is a sign or digit with digits after it. -/
theorem isLiteral_ofInt (value : Int) :
    isLiteral (ofInt value).toList = true := by
  rw [toList_ofInt]
  cases value with
  | ofNat magnitude =>
      obtain ⟨first, rest, written⟩ :=
        List.exists_cons_of_ne_nil (decimalDigits_ne_nil magnitude)
      have among : ∀ character ∈ first :: rest,
          character ∈ decimalDigits magnitude := by
        rw [written]
        exact fun _ member => member
      have starts : isLiteralStart first = true := by
        simp [isLiteralStart,
          isDigit_of_mem_decimalDigits (among first (by simp))]
      show isLiteral (decimalDigits magnitude) = true
      rw [written]
      refine Bool.and_eq_true_iff.mpr ⟨starts, List.all_eq_true.mpr ?_⟩
      exact fun character member => isLiteralCharacter_of_mem_decimalDigits
        (among character (List.mem_cons_of_mem _ member))
  | negSucc predecessor =>
      exact List.all_eq_true.mpr
        (fun _ => isLiteralCharacter_of_mem_decimalDigits)

end Numeral

namespace IntegerLiteral

variable {digits : List Char}

/-- Digits alone are a decimal literal. -/
theorem magnitude?_of_isDigit
    (all : ∀ character ∈ digits, character.isDigit = true) :
    magnitude? digits = Numeral.value? 10 digits := by
  unfold magnitude?
  split
  next => exact absurd (all 'x' (by simp)) (by decide)
  next => exact absurd (all 'X' (by simp)) (by decide)
  next => rfl

theorem signedValue?_of_isDigit
    (all : ∀ character ∈ digits, character.isDigit = true) :
    signedValue? digits = (Numeral.value? 10 digits).map Int.ofNat := by
  rw [← magnitude?_of_isDigit all]
  unfold signedValue?
  split
  next => exact absurd (all '-' (by simp)) (by decide)
  next => exact absurd (all '+' (by simp)) (by decide)
  next => rfl

theorem signedValue?_ofInt (value : Int) :
    signedValue? (Numeral.ofInt value).toList = some value := by
  have all : ∀ {magnitude character},
      character ∈ Numeral.decimalDigits magnitude →
        character.isDigit = true :=
    Numeral.isDigit_of_mem_decimalDigits
  rw [Numeral.toList_ofInt]
  cases value with
  | ofNat magnitude =>
      rw [signedValue?_of_isDigit (fun _ => all),
        Numeral.value?_decimalDigits]
      rfl
  | negSucc predecessor =>
      rw [signedValue?, magnitude?_of_isDigit (fun _ => all),
        Numeral.value?_decimalDigits]
      rfl

/-- **Literals.**  The text of a word is read as this word. -/
theorem read_ofInt (word : Int32) :
    read (Numeral.ofInt word.toInt).toList = .ok word := by
  have fits : fitsWord word.toInt = true := by
    have lower := word.le_toInt
    have upper := word.toInt_lt
    simp only [fitsWord, decide_eq_true_eq]
    omega
  simp only [read, signedValue?_ofInt, fits, if_true, Int32.ofInt_toInt]

end IntegerLiteral

theorem Numeral.ofInt_injective : Function.Injective ofInt := by
  intro value other same
  have read := IntegerLiteral.signedValue?_ofInt value
  rw [same, IntegerLiteral.signedValue?_ofInt] at read
  exact (Option.some.inj read).symm

end MiniMips
