import Mathlib.Data.List.Forall2
import Mathlib.Data.List.Induction

/-!
Contract: cutting lists.

Owns:
- where a prefix that is taken by a test ends;
- the element at a cut of a list or of two joined lists;
- lists that are joined from parts;
- lists that are related element by element, and their cuts;
- the first place in a list where something holds of an element and the
  elements before it;
- places of lists that are related element by element.
-/

namespace MiniMips

variable {α β : Type}

/-- What satisfies a test is taken up to the first element that does not. -/
theorem takeWhile_append_of_stop {accepts : α → Bool} {taken rest : List α}
    (all : ∀ element ∈ taken, accepts element = true)
    (stop : ∀ first ∈ rest.head?, accepts first = false) :
    (taken ++ rest).takeWhile accepts = taken ∧
      (taken ++ rest).dropWhile accepts = rest := by
  rw [List.takeWhile_append_of_pos all, List.dropWhile_append_of_pos all]
  cases rest with
  | nil => simp
  | cons first rest => simp [stop first (by simp)]

/-- An element of a list with the elements before it is the first one, with
none before it, or one of the others. -/
theorem exists_cut_cons_iff {motive : List α → α → Prop} {first : α}
    {rest : List α} :
    (∃ before found after, first :: rest = before ++ found :: after ∧
        motive before found) ↔
      motive [] first ∨
        ∃ before found after, rest = before ++ found :: after ∧
          motive (first :: before) found := by
  constructor
  · rintro ⟨before, found, after, whole, holds⟩
    cases before with
    | nil =>
        obtain ⟨rfl, rfl⟩ := List.cons.inj whole
        exact .inl holds
    | cons head before =>
        obtain ⟨rfl, rfl⟩ := List.cons.inj whole
        exact .inr ⟨before, found, after, rfl, holds⟩
  · rintro (holds | ⟨before, found, after, rfl, holds⟩)
    · exact ⟨[], first, rest, rfl, holds⟩
    · exact ⟨first :: before, found, after, rfl, holds⟩

/-- An element of two joined lists belongs to the first or to the second. -/
theorem cut_append {before after left right : List α} {found : α}
    (same : before ++ found :: after = left ++ right) :
    (∃ rest, left = before ++ found :: rest ∧ after = rest ++ right) ∨
      ∃ rest, before = left ++ rest ∧ right = rest ++ found :: after := by
  rcases List.append_eq_append_iff.mp same with
    ⟨middle, rfl, tail⟩ | ⟨middle, rfl, rfl⟩
  · cases middle with
    | nil => exact .inr ⟨[], by simp, tail.symm⟩
    | cons first rest =>
        obtain ⟨rfl, rfl⟩ := List.cons.inj tail
        exact .inl ⟨rest, rfl, rfl⟩
  · exact .inr ⟨middle, rfl, rfl⟩

/-- Two cuts of a list at the first place of one element are the same. -/
theorem append_cons_inj {mark : α} {left right otherLeft otherRight : List α}
    (absent : mark ∉ left) (otherAbsent : mark ∉ otherLeft)
    (same : left ++ mark :: right = otherLeft ++ mark :: otherRight) :
    left = otherLeft ∧ right = otherRight := by
  rcases cut_append same with ⟨rest, rfl, _⟩ | ⟨rest, rfl, tail⟩
  · simp at otherAbsent
  · cases rest with
    | nil => exact ⟨List.append_nil _, (List.cons.inj tail).2.symm⟩
    | cons first rest =>
        obtain ⟨rfl, _⟩ := List.cons.inj tail
        simp at absent

/-- Lists that are joined from parts are cut apart part by part, where the end
of every part can be found. -/
theorem flatMap_append_inj {left right : β → List α} {alike : β → Prop}
    (cut : ∀ part rest otherRest,
      left part ++ rest = right part ++ otherRest →
        alike part ∧ rest = otherRest)
    {parts : List β} {rest otherRest : List α}
    (same : parts.flatMap left ++ rest = parts.flatMap right ++ otherRest) :
    (∀ part ∈ parts, alike part) ∧ rest = otherRest := by
  induction parts with
  | nil => exact ⟨by simp, same⟩
  | cons part parts inductionHypothesis =>
      rw [List.flatMap_cons, List.flatMap_cons, List.append_assoc,
        List.append_assoc] at same
      obtain ⟨first, behind⟩ := cut part _ _ same
      obtain ⟨others, sameRest⟩ := inductionHypothesis behind
      exact ⟨List.forall_mem_cons.mpr ⟨first, others⟩, sameRest⟩

/-- Elements with as many elements before them stand in the same parts of
lists that are joined alike. -/
theorem cut_append_both {before after left right : List α} {found : α}
    {otherBefore otherAfter otherLeft otherRight : List β} {other : β}
    (same : before ++ found :: after = left ++ right)
    (otherSame : otherBefore ++ other :: otherAfter = otherLeft ++ otherRight)
    (sameLeft : left.length = otherLeft.length)
    (samePlace : before.length = otherBefore.length) :
    (∃ rest otherRest, left = before ++ found :: rest ∧
        otherLeft = otherBefore ++ other :: otherRest) ∨
      ∃ rest otherRest,
        before = left ++ rest ∧ right = rest ++ found :: after ∧
        otherBefore = otherLeft ++ otherRest ∧
        otherRight = otherRest ++ other :: otherAfter := by
  rcases cut_append same with ⟨rest, rfl, _⟩ | ⟨rest, rfl, inRight⟩ <;>
    rcases cut_append otherSame with
      ⟨otherRest, rfl, _⟩ | ⟨otherRest, rfl, otherInRight⟩ <;>
    simp only [List.length_append, List.length_cons] at sameLeft samePlace
  · exact .inl ⟨rest, otherRest, rfl, rfl⟩
  · omega
  · omega
  · exact .inr ⟨rest, otherRest, rfl, inRight, rfl, otherInRight⟩

/-- A list that is related to a cut one is cut at the same place. -/
theorem forall₂_append_cons {R : α → β → Prop} {whole : List α}
    {before after : List β} {found : β}
    (related : List.Forall₂ R whole (before ++ found :: after)) :
    ∃ left middle right, whole = left ++ middle :: right ∧
      List.Forall₂ R left before ∧ R middle found ∧
      List.Forall₂ R right after := by
  have first := List.forall₂_take_append _ _ _ related
  have second := List.forall₂_drop_append _ _ _ related
  obtain ⟨middle, right, holds, others, cut⟩ :=
    List.forall₂_cons_right_iff.mp second
  refine ⟨whole.take before.length, middle, right, ?_, first, holds, others⟩
  rw [← cut, List.take_append_drop]

/-- Relations that are alike for every element of the first list. -/
theorem forall₂_congr_of_mem {R S : α → β → Prop} {whole : List α}
    {parts : List β}
    (alike : ∀ element ∈ whole, ∀ part, R element part ↔ S element part) :
    List.Forall₂ R whole parts ↔ List.Forall₂ S whole parts := by
  induction whole generalizing parts with
  | nil => simp
  | cons element whole inductionHypothesis =>
      obtain ⟨first, others⟩ := List.forall_mem_cons.mp alike
      simp only [List.forall₂_cons_left_iff, first, inductionHypothesis others]

theorem map_eq_map_of_forall₂ {γ : Type} {left : α → γ} {right : β → γ}
    {whole : List α} {parts : List β}
    (related : List.Forall₂ (fun element part => left element = right part)
      whole parts) : whole.map left = parts.map right := by
  rw [← List.forall₂_eq_eq_eq, List.forall₂_map_left_iff,
    List.forall₂_map_right_iff]
  exact related

/-- Lists of elements that are told apart by their images are told apart by
them as well. -/
theorem eq_of_map_eq_map {image : α → β} {whole others : List α}
    (apart : ∀ element ∈ whole, ∀ other ∈ others,
      image element = image other → element = other)
    (same : whole.map image = others.map image) : whole = others := by
  induction whole generalizing others with
  | nil => exact (List.map_eq_nil_iff.mp same.symm).symm
  | cons element whole inductionHypothesis =>
      cases others with
      | nil => contradiction
      | cons other others =>
          obtain ⟨sameFirst, sameOthers⟩ := List.cons.inj same
          obtain rfl := apart element List.mem_cons_self other
            List.mem_cons_self sameFirst
          rw [inductionHypothesis (fun element member other among =>
            apart element (List.mem_cons_of_mem _ member) other
              (List.mem_cons_of_mem _ among)) sameOthers]

theorem exists_related_of_mem {R : α → β → Prop} {whole : List α}
    {parts : List β} {element : α} (related : List.Forall₂ R whole parts)
    (member : element ∈ whole) : ∃ part ∈ parts, R element part := by
  obtain ⟨before, after, rfl⟩ := List.append_of_mem member
  obtain ⟨left, part, right, rfl, _, holds, _⟩ :=
    forall₂_append_cons related.flip
  exact ⟨part, by simp, holds⟩

theorem exists_mem_iff_of_forall₂ {R : α → β → Prop} {P : α → Prop}
    {Q : β → Prop} {whole : List α} {parts : List β}
    (related : List.Forall₂ R whole parts)
    (alike : ∀ element part, R element part → (P element ↔ Q part)) :
    (∃ element ∈ whole, P element) ↔ ∃ part ∈ parts, Q part := by
  induction related with
  | nil => simp
  | @cons element part whole parts holds _ inductionHypothesis =>
      simp only [List.exists_mem_cons_iff, alike element part holds,
        inductionHypothesis]

/-! ## First places -/

/-- There is no element that something holds of, with the elements before
it. -/
def Nowhere (P : List α → α → Prop) (whole : List α) : Prop :=
  ∀ before found, before ++ [found] <+: whole → ¬ P before found

/-- The first element that something holds of, with the elements before
it. -/
structure FirstPlace (P : List α → α → Prop) (whole before : List α)
    (found : α) : Prop where
  cut : before ++ [found] <+: whole
  holds : P before found
  noneBefore : Nowhere P before

variable {P : List α → α → Prop} {whole before otherBefore : List α}
  {found other : α}

theorem nowhere_nil : Nowhere P [] := by
  intro before found cut
  exact absurd (List.eq_nil_of_prefix_nil cut) (by simp)

theorem nowhere_concat_iff :
    Nowhere P (before ++ [found]) ↔ Nowhere P before ∧ ¬ P before found := by
  constructor
  · intro nowhere
    refine ⟨fun earlier other cut => nowhere earlier other ?_,
      nowhere before found (List.prefix_refl _)⟩
    exact cut.trans (List.prefix_append _ _)
  · intro nowhere earlier other cut
    rcases List.prefix_concat_iff.mp cut with same | inBefore
    · obtain ⟨rfl, last⟩ := List.append_inj' same rfl
      cases last
      exact nowhere.2
    · exact nowhere.1 earlier other inBefore

theorem nowhere_append {left right : List α} (nowhere : Nowhere P left)
    (onward : ∀ before found, before ++ [found] <+: right →
      ¬ P (left ++ before) found) : Nowhere P (left ++ right) := by
  induction right using List.reverseRecOn with
  | nil =>
      rw [List.append_nil]
      exact nowhere
  | append_singleton right last inductionHypothesis =>
      rw [← List.append_assoc]
      refine nowhere_concat_iff.mpr ⟨inductionHypothesis ?_,
        onward right last (List.prefix_refl _)⟩
      intro before found cut
      exact onward before found (cut.trans (List.prefix_append _ _))

theorem FirstPlace.not_nowhere (first : FirstPlace P whole before found) :
    ¬ Nowhere P whole :=
  fun nowhere => nowhere before found first.cut first.holds

/-- There is one first place at most. -/
theorem FirstPlace.unique (first : FirstPlace P whole before found)
    (second : FirstPlace P whole otherBefore other) :
    before = otherBefore ∧ found = other := by
  have whole : before ++ [found] = otherBefore ++ [other] := by
    rcases List.prefix_or_prefix_of_prefix first.cut second.cut with
      shorter | shorter
    · rcases List.prefix_concat_iff.mp shorter with same | inBefore
      · exact same
      · exact absurd first.holds (second.noneBefore _ _ inBefore)
    · rcases List.prefix_concat_iff.mp shorter with same | inBefore
      · exact same.symm
      · exact absurd second.holds (first.noneBefore _ _ inBefore)
  obtain ⟨sameBefore, sameFound⟩ := List.append_inj' whole rfl
  exact ⟨sameBefore, List.singleton_inj.mp sameFound⟩

/-! ## Related places -/

/-- What holds at places of one list holds at the related places of the
other. -/
def SamePlaces (R : α → β → Prop) (P : List α → α → Prop)
    (Q : List β → β → Prop) (whole : List α) (others : List β) : Prop :=
  ∀ before found otherBefore otherFound,
    before ++ [found] <+: whole → otherBefore ++ [otherFound] <+: others →
    List.Forall₂ R before otherBefore → R found otherFound →
    (P before found ↔ Q otherBefore otherFound)

variable {R : α → β → Prop} {Q : List β → β → Prop} {others : List β}

/-- Every place has a related one. -/
theorem exists_place_of_forall₂ (related : List.Forall₂ R whole others)
    (cut : before ++ [found] <+: whole) :
    ∃ otherBefore otherFound, otherBefore ++ [otherFound] <+: others ∧
      List.Forall₂ R before otherBefore ∧ R found otherFound := by
  obtain ⟨after, rfl⟩ := cut
  rw [List.append_assoc, List.singleton_append] at related
  obtain ⟨left, middle, right, rfl, relatedBefore, holds, _⟩ :=
    forall₂_append_cons related.flip
  exact ⟨left, middle, by simp, relatedBefore.flip, holds⟩

theorem SamePlaces.nowhere (same : SamePlaces R P Q whole others)
    (related : List.Forall₂ R whole others) (nowhere : Nowhere P whole) :
    Nowhere Q others := by
  intro otherBefore otherFound otherCut holds
  obtain ⟨before, found, cut, relatedBefore, relatedFound⟩ :=
    exists_place_of_forall₂ related.flip otherCut
  exact nowhere before found cut
    ((same before found otherBefore otherFound cut otherCut relatedBefore.flip
      relatedFound).mpr holds)

/-- The first place of one list is related to the first place of the other. -/
theorem SamePlaces.firstPlace (same : SamePlaces R P Q whole others)
    (related : List.Forall₂ R whole others)
    (first : FirstPlace P whole before found) :
    ∃ otherBefore otherFound, FirstPlace Q others otherBefore otherFound ∧
      List.Forall₂ R before otherBefore ∧ R found otherFound := by
  obtain ⟨otherBefore, otherFound, otherCut, relatedBefore, relatedFound⟩ :=
    exists_place_of_forall₂ related first.cut
  have shorter : before <+: whole :=
    (List.prefix_append before [found]).trans first.cut
  have otherShorter : otherBefore <+: others :=
    (List.prefix_append otherBefore [otherFound]).trans otherCut
  have sameBefore : SamePlaces R P Q before otherBefore := by
    intro earlier other otherEarlier otherOther cut cutOther
    exact same earlier other otherEarlier otherOther (cut.trans shorter)
      (cutOther.trans otherShorter)
  refine ⟨otherBefore, otherFound, ⟨otherCut, ?_, ?_⟩, relatedBefore,
    relatedFound⟩
  · exact (same before found otherBefore otherFound first.cut otherCut
      relatedBefore relatedFound).mp first.holds
  · exact sameBefore.nowhere relatedBefore first.noneBefore

/-- Elements that are related are taken by both tests or by neither. -/
theorem forall₂_takeWhile {accepts : α → Bool} {admits : β → Bool}
    (related : List.Forall₂ R whole others)
    (alike : ∀ element other, R element other →
      accepts element = admits other) :
    List.Forall₂ R (whole.takeWhile accepts) (others.takeWhile admits) := by
  induction related with
  | nil => exact .nil
  | @cons element other whole others holds _ inductionHypothesis =>
      rw [List.takeWhile_cons, List.takeWhile_cons, alike element other holds]
      split
      · exact .cons holds inductionHypothesis
      · exact .nil

/-- The first elements that related lists have for two tests are related. -/
theorem rel_find?_of_forall₂ {accepts : α → Bool} {admits : β → Bool}
    (related : List.Forall₂ R whole others)
    (alike : ∀ element other, R element other →
      accepts element = admits other) :
    Option.Rel R (whole.find? accepts) (others.find? admits) := by
  induction related with
  | nil => exact .none
  | @cons element other whole others holds _ inductionHypothesis =>
      rw [List.find?_cons, List.find?_cons, alike element other holds]
      split
      · exact .some holds
      · exact inductionHypothesis

theorem map_eq_of_rel {γ : Type} {first : Option α} {second : Option β}
    {left : α → γ} {right : β → γ} (related : Option.Rel R first second)
    (alike : ∀ element other, R element other → left element = right other) :
    first.map left = second.map right := by
  cases related with
  | none => rfl
  | some holds => exact congrArg some (alike _ _ holds)

end MiniMips
