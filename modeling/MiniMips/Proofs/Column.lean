import MiniMips.Column
import MiniMips.Proofs.Lists
import MiniMips.Proofs.Numeral

/-!
Contract: columns cut apart again.

Owns:
- where a text ends that is set to the left or to the right of a column;
- that padding breaks no line.

A text that is wider than its column has no padding at all, and pushes what is
behind it to the right.  It ends where it ends in a wider column: at the first
blank, or at the first character behind it that cannot belong to it.
-/

namespace MiniMips.Column

variable {width value otherValue : Nat} {text other : String}
  {rest otherRest : List Char}

theorem toList_alignLeft (width : Nat) (text : String) :
    (alignLeft width text).toList =
      text.toList ++ List.replicate (width - text.toList.length) ' ' :=
  String.toList_ofList

theorem toList_alignRight (width : Nat) (text : String) :
    (alignRight width text).toList =
      List.replicate (width - text.toList.length) ' ' ++ text.toList :=
  String.toList_ofList

theorem newline_not_mem_alignLeft (unbroken : '\n' ∉ text.toList)
    (width : Nat) : '\n' ∉ (alignLeft width text).toList := by
  rw [toList_alignLeft, List.mem_append, not_or]
  refine ⟨unbroken, fun padding => ?_⟩
  exact absurd (List.eq_of_mem_replicate padding) (by decide)

theorem newline_not_mem_alignRight (unbroken : '\n' ∉ text.toList)
    (width : Nat) : '\n' ∉ (alignRight width text).toList := by
  rw [toList_alignRight, List.mem_append, not_or]
  refine ⟨fun padding => ?_, unbroken⟩
  exact absurd (List.eq_of_mem_replicate padding) (by decide)

/-- The padding to the right of a text goes together with the blank behind its
column. -/
theorem alignLeft_append_blank (width : Nat) (text : String)
    (rest : List Char) :
    (alignLeft width text).toList ++ ' ' :: rest =
      text.toList ++ ' ' ::
        (List.replicate (width - text.toList.length) ' ' ++ rest) := by
  rw [toList_alignLeft, List.append_assoc, ← List.cons_append,
    ← List.replicate_succ, List.replicate_succ', List.append_assoc,
    List.singleton_append]

/-- A text without blanks that is set to the left of a column ends at the first
blank. -/
theorem alignLeft_append_inj (solid : ' ' ∉ text.toList)
    (otherSolid : ' ' ∉ other.toList)
    (same : (alignLeft width text).toList ++ ' ' :: rest =
      (alignLeft width other).toList ++ ' ' :: otherRest) :
    text = other ∧ rest = otherRest := by
  rw [alignLeft_append_blank, alignLeft_append_blank] at same
  obtain ⟨sameText, padded⟩ := append_cons_inj solid otherSolid same
  obtain rfl := String.toList_inj.mp sameText
  exact ⟨rfl, List.append_cancel_left padded⟩

theorem dropWhile_alignRight (solid : ' ' ∉ text.toList)
    (filled : text.toList ≠ []) (width : Nat) (rest : List Char) :
    ((alignRight width text).toList ++ rest).dropWhile
        (fun character => character == ' ') =
      text.toList ++ rest := by
  rw [toList_alignRight, List.append_assoc]
  refine (takeWhile_append_of_stop ?_ ?_).2
  · intro character member
    rw [List.eq_of_mem_replicate member]
    rfl
  · intro first member
    refine beq_false_of_ne ?_
    rintro rfl
    rw [List.head?_append_of_ne_nil _ filled] at member
    exact solid (List.mem_of_mem_head? member)

/-- A text without blanks that is set to the right of a column ends at the
first character behind it that is not one of the text. -/
theorem alignRight_append_inj {mark : Char} (solid : ' ' ∉ text.toList)
    (filled : text.toList ≠ []) (otherSolid : ' ' ∉ other.toList)
    (otherFilled : other.toList ≠ []) (absent : mark ∉ text.toList)
    (otherAbsent : mark ∉ other.toList)
    (same : (alignRight width text).toList ++ mark :: rest =
      (alignRight width other).toList ++ mark :: otherRest) :
    text = other ∧ rest = otherRest := by
  have unpadded := congrArg
    (List.dropWhile (fun character => character == ' ')) same
  rw [dropWhile_alignRight solid filled,
    dropWhile_alignRight otherSolid otherFilled] at unpadded
  obtain ⟨sameText, sameRest⟩ := append_cons_inj absent otherAbsent unpadded
  exact ⟨String.toList_inj.mp sameText, sameRest⟩

/-- A natural number that is set to the right of a column ends at the first
character behind it that is not a digit. -/
theorem alignRight_ofNat_append_inj {mark : Char}
    (noDigit : mark.isDigit = false)
    (same : (alignRight width (Numeral.ofNat value)).toList ++ mark :: rest =
      (alignRight width (Numeral.ofNat otherValue)).toList ++
        mark :: otherRest) :
    value = otherValue ∧ rest = otherRest := by
  have solid : ∀ value, ' ' ∉ (Numeral.ofNat value).toList :=
    Numeral.not_mem_ofNat rfl
  have absent := Numeral.not_mem_ofNat noDigit
  obtain ⟨sameText, sameRest⟩ := alignRight_append_inj (solid _)
    (Numeral.toList_ofNat_ne_nil _) (solid _) (Numeral.toList_ofNat_ne_nil _)
    (absent _) (absent _) same
  exact ⟨Numeral.ofNat_injective sameText, sameRest⟩

/-- An integer that is set to the right of a column ends at the blank behind
it. -/
theorem alignRight_ofInt_append_inj {value otherValue : Int}
    (same : (alignRight width (Numeral.ofInt value)).toList ++ ' ' :: rest =
      (alignRight width (Numeral.ofInt otherValue)).toList ++
        ' ' :: otherRest) :
    value = otherValue ∧ rest = otherRest := by
  have solid := Numeral.blank_not_mem_ofInt
  obtain ⟨sameText, sameRest⟩ := alignRight_append_inj (solid _)
    (Numeral.toList_ofInt_ne_nil _) (solid _) (Numeral.toList_ofInt_ne_nil _)
    (solid _) (solid _) same
  exact ⟨Numeral.ofInt_injective sameText, sameRest⟩

end MiniMips.Column
