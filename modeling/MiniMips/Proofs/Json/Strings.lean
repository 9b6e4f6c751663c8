import MiniMips.Json.Text
import MiniMips.Proofs.Json.Grammar

/-!
Contract: reading the strings of JSON documents.

Owns:
- that the texts of pieces, up to the quote behind them, are what is read as
  these pieces;
- that pieces are decoded into the characters that they denote.
-/

namespace MiniMips.Json.TextPiece

variable {piece : TextPiece} {pieces : List TextPiece} {text rest : List Char}

/-! ## Reading -/

theorem namedEscape?_of_mem {letter value : Char}
    (known : (letter, value) ∈ escapes) :
    namedEscape? letter = some value ∧ letter ≠ 'u' := by
  have all : ∀ known ∈ escapes,
      namedEscape? known.1 = some known.2 ∧ known.1 ≠ 'u' := by decide
  exact all (letter, value) known

/-- The text of one piece is read before the rest. -/
theorem Written.read?_append (written : Written piece text) :
    read? (text ++ rest) =
      (read? rest).map (fun found => (piece :: found.1, found.2)) := by
  cases written with
  | @plain value printable noQuote noEscape =>
      have allowed : ¬(value.toNat < 32 || value == '\\') = true := by
        simp [noEscape, Nat.not_lt.mpr printable]
      rw [List.singleton_append, read?, if_neg allowed]
      · exact noQuote
      · intro _ _ _ _ _ same
        exact absurd same noEscape
      · intro _ _ same
        exact absurd same noEscape
  | @escaped letter value known =>
      obtain ⟨named, notNumbered⟩ := namedEscape?_of_mem known
      show read? ('\\' :: letter :: rest) = _
      rw [read?]
      · simp only [named]
      · intro _ _ _ _ _ same
        exact absurd same notNumbered
  | @numbered digits unit four writes =>
      obtain ⟨first, second, third, fourth, rfl⟩ :=
        List.length_eq_four.mp four
      have value := (Numeral.value?_eq_some_iff (by decide)).mpr writes
      show read? ('\\' :: 'u' :: first :: second :: third :: fourth :: rest) = _
      rw [read?]
      simp only [value]

/-- **Strings.**  The pieces of a string are read up to the quote behind
them. -/
theorem Spelled.read?_append (spelled : Spelled pieces text)
    (rest : List Char) :
    read? (text ++ '"' :: rest) = some (pieces, rest) := by
  induction spelled with
  | nil => rfl
  | cons first others inductionHypothesis =>
      rw [List.append_assoc, first.read?_append, inductionHypothesis]
      rfl

/-! ## What was read -/

theorem mem_escapes_of_namedEscape? {letter value : Char}
    (named : namedEscape? letter = some value) : (letter, value) ∈ escapes := by
  unfold namedEscape? at named
  split at named <;> cases named <;> decide

/-- One more piece before what the rest of a text was read as. -/
theorem Written.exists_string {front : List Char} (first : Written piece front)
    (others : ∀ {pieces rest}, read? text = some (pieces, rest) →
      ∃ string, text = string ++ '"' :: rest ∧ Spelled pieces string)
    (found : (read? text).map (fun found => (piece :: found.1, found.2)) =
      some (pieces, rest)) :
    ∃ string, front ++ text = string ++ '"' :: rest ∧
      Spelled pieces string := by
  obtain ⟨⟨pieces, rest⟩, read, ⟨⟩⟩ := Option.map_eq_some_iff.mp found
  obtain ⟨string, rfl, spelled⟩ := others read
  exact ⟨front ++ string, (List.append_assoc ..).symm, .cons first spelled⟩

/-- What is read as a string is the texts of its pieces and a quote behind
them. -/
theorem read?_eq_some (found : read? text = some (pieces, rest)) :
    ∃ string, text = string ++ '"' :: rest ∧ Spelled pieces string := by
  fun_induction read? text generalizing pieces rest with
  | case1 => contradiction
  | case2 rest =>
      cases found
      exact ⟨[], rfl, .nil⟩
  | case3 => contradiction
  | case4 first second third fourth behind unit value inductionHypothesis =>
      have written : Written (.codeUnit unit)
          ['\\', 'u', first, second, third, fourth] :=
        .numbered rfl ((Numeral.value?_eq_some_iff (by decide)).mp value)
      exact written.exists_string inductionHypothesis found
  | case5 => contradiction
  | case6 letter behind _ value named inductionHypothesis =>
      have written : Written (.character value) ['\\', letter] :=
        .escaped (mem_escapes_of_namedEscape? named)
      exact written.exists_string inductionHypothesis found
  | case7 => contradiction
  | case8 value behind noQuote _ _ allowed inductionHypothesis =>
      simp only [Bool.or_eq_true, decide_eq_true_eq, beq_iff_eq,
        not_or] at allowed
      have written : Written (.character value) [value] :=
        .plain (Nat.not_lt.mp allowed.1) noQuote allowed.2
      exact written.exists_string inductionHypothesis found

/-! ## Characters -/

/-- No character is a surrogate. -/
theorem not_isSurrogate (value : Char) :
    isLeading value.toNat = false ∧ isTrailing value.toNat = false := by
  have valid : value.toNat < 0xD800 ∨
      0xDFFF < value.toNat ∧ value.toNat < 0x110000 := value.valid
  simp only [isLeading, isTrailing, decide_eq_false_iff_not]
  omega

theorem decode?_unit (value : Char) (pieces : List TextPiece) :
    decode? (.codeUnit value.toNat :: pieces) =
      (decode? pieces).map (value :: ·) := by
  obtain ⟨notLeading, notTrailing⟩ := not_isSurrogate value
  cases pieces with
  | nil => simp [decode?, notLeading, notTrailing]
  | cons piece pieces =>
      cases piece <;> simp [decode?, notLeading, notTrailing]

theorem decode?_pair (value : Char) (supplementary : 0x10000 ≤ value.toNat)
    (pieces : List TextPiece) :
    decode?
        (.codeUnit (0xD800 + (value.toNat - 0x10000) / 0x400) ::
          .codeUnit (0xDC00 + (value.toNat - 0x10000) % 0x400) :: pieces) =
      (decode? pieces).map (value :: ·) := by
  have valid : value.toNat < 0xD800 ∨
      0xDFFF < value.toNat ∧ value.toNat < 0x110000 := value.valid
  have leads : isLeading (0xD800 + (value.toNat - 0x10000) / 0x400) = true := by
    simp only [isLeading, decide_eq_true_eq]
    omega
  have trails :
      isTrailing (0xDC00 + (value.toNat - 0x10000) % 0x400) = true := by
    simp only [isTrailing, decide_eq_true_eq]
    omega
  have same : characterOfPair (0xD800 + (value.toNat - 0x10000) / 0x400)
      (0xDC00 + (value.toNat - 0x10000) % 0x400) = value := by
    have code : 0x10000 +
        (0xD800 + (value.toNat - 0x10000) / 0x400 - 0xD800) * 0x400 +
        (0xDC00 + (value.toNat - 0x10000) % 0x400 - 0xDC00) =
          value.toNat := by omega
    rw [characterOfPair, code, Char.ofNat_toNat]
  rw [decode?, if_pos leads, if_pos trails, same]

/-- **Text.**  Pieces are decoded into the characters they denote. -/
theorem Denotes.decode?_eq (denotes : Denotes pieces text) :
    decode? pieces = some text := by
  induction denotes with
  | nil => rfl
  | character value others inductionHypothesis =>
      rw [decode?, inductionHypothesis]
      rfl
  | unit value basic others inductionHypothesis =>
      rw [decode?_unit, inductionHypothesis]
      rfl
  | pair value supplementary others inductionHypothesis =>
      rw [decode?_pair value supplementary, inductionHypothesis]
      rfl

end MiniMips.Json.TextPiece
