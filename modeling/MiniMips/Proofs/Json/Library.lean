import MiniMips.Json.Library
import MiniMips.Proofs.Json.Grammar

/-!
Contract: what is relied on of a library for JSON.

Owns:
- the laws of a library, one for each of its operations: which texts it decodes,
  which documents the plain values have, and how a record is put together;
- objects that hold the fields of a record in any order, with other members
  between them, and that a lawful library finds these fields.

Does not own: that any library is lawful.
-/

namespace MiniMips.Json

/-- At most one member of an object, with this key. -/
def Document.member? (key : List TextPiece) (value? : Option Document) :
    List (List TextPiece × Document) :=
  (value?.map (fun value => (key, value))).toList

/-- A key that denotes neither of two names. -/
def TextPiece.IsOther (first second : String) (key : List TextPiece) : Prop :=
  ∃ name, Denotes key name ∧ name ≠ first.toList ∧ name ≠ second.toList

namespace Library

/-- The laws of a library. -/
structure Lawful [Library] : Prop where
  /-- A text is decoded like its document, unless this is nested too deep. -/
  fromText : ∀ {α : Type} (decoder : Decoder α) {document : Document}
    {text : String}, document.depth ≤ depthLimit →
      Token.Spaced document.tokens text.toList →
      fromText? decoder text = decoder document
  boolean : ∀ value, boolean (.boolean value) = some value
  natural : ∀ value : Nat, value < 2 ^ 64 →
    natural (.number (some value)) = some value
  word : ∀ value : Int32, word (.number (some value.toInt)) = some value
  /-- Null is the missing value. -/
  optional_null : ∀ {α : Type} (decoder : Decoder α),
    optional decoder .null = some none
  /-- Any other document is that of a value. -/
  optional_value : ∀ {α : Type} (decoder : Decoder α) {document : Document},
    document ≠ .null → optional decoder document = (decoder document).map some
  /-- Fields that are given are decoded, and the others have their standard
  values. -/
  record_fields : ∀ {α β : Type}
    {first : RecordField α} {second : RecordField β}
    {firstKey secondKey : List TextPiece}
    {firstDocument? secondDocument? : Option Document}
    {firstValue : α} {secondValue : β}, first.name ≠ second.name →
      TextPiece.Denotes firstKey first.name.toList →
      TextPiece.Denotes secondKey second.name.toList →
      first.value? firstDocument? = some firstValue →
      second.value? secondDocument? = some secondValue →
      record first second
          (.object (Document.member? firstKey firstDocument? ++
            Document.member? secondKey secondDocument?)) =
        some (firstValue, secondValue)
  /-- The members of an object may stand in any order. -/
  record_perm : ∀ {α β : Type} (first : RecordField α) (second : RecordField β)
    {members others : List (List TextPiece × Document)}, members.Perm others →
      record first second (.object members) =
        record first second (.object others)
  /-- Members that are no fields are ignored. -/
  record_other : ∀ {α β : Type} (first : RecordField α) (second : RecordField β)
    {key : List TextPiece} (value : Document)
    (members : List (List TextPiece × Document)),
      TextPiece.IsOther first.name second.name key →
      record first second (.object ((key, value) :: members)) =
        record first second (.object members)

end Library

namespace Document

/-- Members of an object in which two fields are given at most once each, among
members with any other keys.  The fields stand in any order. -/
inductive Fields (first second : String) :
    Option Document → Option Document → List (List TextPiece × Document) →
      Prop where
  | nil : Fields first second none none []
  | first {key : List TextPiece} {value : Document}
      {second? : Option Document} {members : List (List TextPiece × Document)}
      (named : TextPiece.Denotes key first.toList)
      (others : Fields first second none second? members) :
      Fields first second (some value) second? ((key, value) :: members)
  | second {key : List TextPiece} {value : Document}
      {first? : Option Document} {members : List (List TextPiece × Document)}
      (named : TextPiece.Denotes key second.toList)
      (others : Fields first second first? none members) :
      Fields first second first? (some value) ((key, value) :: members)
  | other {key : List TextPiece} {value : Document}
      {first? second? : Option Document}
      {members : List (List TextPiece × Document)}
      (named : TextPiece.IsOther first second key)
      (others : Fields first second first? second? members) :
      Fields first second first? second? ((key, value) :: members)

variable {first second : String} {first? second? : Option Document}
  {members : List (List TextPiece × Document)}

/-- Put in another order, the members are first those that are no fields, and
then the fields. -/
theorem Fields.exists_perm
    (fields : Fields first second first? second? members) :
    ∃ others firstKey secondKey,
      (∀ other ∈ others, TextPiece.IsOther first second other.1) ∧
      TextPiece.Denotes firstKey first.toList ∧
      TextPiece.Denotes secondKey second.toList ∧
      members.Perm
        (others ++ (member? firstKey first? ++ member? secondKey second?)) := by
  induction fields with
  | nil =>
      exact ⟨[], _, _, by simp, .plain _, .plain _, .refl []⟩
  | first named _ inductionHypothesis =>
      obtain ⟨others, _, secondKey, areOther, _, second, perm⟩ :=
        inductionHypothesis
      exact ⟨others, _, secondKey, areOther, named, second,
        (perm.cons _).trans List.perm_middle.symm⟩
  | second named _ inductionHypothesis =>
      obtain ⟨others, firstKey, _, areOther, first, _, perm⟩ :=
        inductionHypothesis
      refine ⟨others, firstKey, _, areOther, first, named, ?_⟩
      rw [← List.append_assoc] at perm ⊢
      exact (perm.cons _).trans List.perm_middle.symm
  | other isOther _ inductionHypothesis =>
      obtain ⟨others, firstKey, secondKey, areOther, first, second, perm⟩ :=
        inductionHypothesis
      exact ⟨_ :: others, firstKey, secondKey,
        List.forall_mem_cons.mpr ⟨isOther, areOther⟩, first, second,
        perm.cons _⟩

end Document

namespace Library.Lawful

variable [Library] {α β : Type} {first : RecordField α} {second : RecordField β}
  {members : List (List TextPiece × Document)}

theorem record_others (lawful : Lawful)
    {others : List (List TextPiece × Document)}
    (areOther : ∀ other ∈ others,
      TextPiece.IsOther first.name second.name other.1) :
    Library.record first second (.object (others ++ members)) =
      Library.record first second (.object members) := by
  induction others with
  | nil => rfl
  | cons other others inductionHypothesis =>
      obtain ⟨isOther, areOther⟩ := List.forall_mem_cons.mp areOther
      rw [List.cons_append, ← inductionHypothesis areOther]
      exact lawful.record_other first second other.2 _ isOther

/-- **Records.**  A lawful library decodes every object with the fields of a
record, wherever they stand and whatever other members there are. -/
theorem record_eq (lawful : Lawful) {first? second? : Option Document}
    {firstValue : α} {secondValue : β}
    (fields : Document.Fields first.name second.name first? second? members)
    (apart : first.name ≠ second.name)
    (firstDecoded : first.value? first? = some firstValue)
    (secondDecoded : second.value? second? = some secondValue) :
    Library.record first second (.object members) =
      some (firstValue, secondValue) := by
  obtain ⟨others, firstKey, secondKey, areOther, firstNamed, secondNamed,
    perm⟩ := fields.exists_perm
  rw [lawful.record_perm first second perm, lawful.record_others areOther]
  exact lawful.record_fields apart firstNamed secondNamed firstDecoded
    secondDecoded

end Library.Lawful

end MiniMips.Json
