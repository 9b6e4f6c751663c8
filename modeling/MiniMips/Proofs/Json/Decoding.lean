import Mathlib.Data.List.Perm.Basic
import MiniMips.Json.Decoding
import MiniMips.Proofs.Json.Documents
import MiniMips.Proofs.Json.Library

/-!
Contract: the library of documents as trees is lawful.

Owns:
- the fields of an object, which do not depend on the order of its members nor
  on those that are no fields;
- the laws of the library.
-/

namespace MiniMips.Json

namespace Document

variable {first second name : String}
  {members others : List (List TextPiece × Document)}
  {named namedOthers : List (List Char × Document)}

/-! ## Members by their names -/

theorem namedMembers?_cons (member : List TextPiece × Document)
    (members : List (List TextPiece × Document)) :
    namedMembers? (member :: members) =
      (TextPiece.decode? member.1).bind (fun name =>
        (namedMembers? members).map ((name, member.2) :: ·)) := by
  rw [namedMembers?, List.mapM_cons, ← namedMembers?]
  cases TextPiece.decode? member.1 with
  | none => rfl
  | some name => cases namedMembers? members <;> rfl

/-- A member of an object with its key as text. -/
def IsNamed (member : List TextPiece × Document)
    (entry : List Char × Document) : Prop :=
  TextPiece.decode? member.1 = some entry.1 ∧ member.2 = entry.2

theorem namedMembers?_eq_some_iff :
    namedMembers? members = some named ↔
      List.Forall₂ IsNamed members named := by
  induction members generalizing named with
  | nil => cases named <;> simp [namedMembers?]
  | cons member members inductionHypothesis =>
      rw [namedMembers?_cons]
      simp only [List.forall₂_cons_left_iff, IsNamed, Option.bind_eq_some_iff,
        Option.map_eq_some_iff, inductionHypothesis]
      constructor
      · rintro ⟨name, decoded, rest, areNamed, rfl⟩
        exact ⟨(name, member.2), rest, ⟨decoded, rfl⟩, areNamed, rfl⟩
      · rintro ⟨⟨name, _⟩, rest, ⟨decoded, rfl⟩, areNamed, rfl⟩
        exact ⟨name, decoded, rest, areNamed, rfl⟩

/-- Members in another order have their names in another order. -/
theorem exists_namedMembers?_of_perm (perm : members.Perm others)
    (found : namedMembers? members = some named) :
    ∃ namedOthers, namedMembers? others = some namedOthers ∧
      named.Perm namedOthers := by
  obtain ⟨namedOthers, areNamed, permNamed⟩ := List.perm_comp_forall₂ perm.symm
    (namedMembers?_eq_some_iff.mp found)
  exact ⟨namedOthers, namedMembers?_eq_some_iff.mpr areNamed, permNamed.symm⟩

theorem field?_of_perm (perm : named.Perm namedOthers) (name : String) :
    field? named name = field? namedOthers name := by
  have chosen := perm.filter (fun entry => decide (entry.1 = name.toList))
  rw [field?, field?]
  generalize named.filter _ = entries at chosen
  generalize namedOthers.filter _ = otherEntries at chosen
  match entries with
  | [] => rw [List.nil_perm.mp chosen]
  | [entry] => rw [List.singleton_perm.mp chosen]
  | entry :: next :: rest =>
      have length := chosen.length_eq
      match otherEntries with
      | _ :: _ :: _ => rfl

theorem twoFields?_of_perm (first second : String)
    (perm : members.Perm others) :
    twoFields? first second (.object members) =
      twoFields? first second (.object others) := by
  rw [twoFields?, twoFields?]
  cases found : namedMembers? members with
  | none =>
      cases foundOthers : namedMembers? others with
      | none => rfl
      | some namedOthers =>
          obtain ⟨named, contrary, _⟩ :=
            exists_namedMembers?_of_perm perm.symm foundOthers
          rw [found] at contrary
          cases contrary
  | some named =>
      obtain ⟨namedOthers, foundOthers, perm⟩ :=
        exists_namedMembers?_of_perm perm found
      simp only [foundOthers, field?_of_perm perm]

/-! ## Fields -/

theorem field?_cons_of_ne {text : List Char} {value : Document}
    (other : text ≠ name.toList) :
    field? ((text, value) :: named) name = field? named name := by
  rw [field?, field?, List.filter_cons_of_neg (by simpa using other)]

theorem twoFields?_cons_of_isOther {key : List TextPiece} (value : Document)
    (isOther : TextPiece.IsOther first second key) :
    twoFields? first second (.object ((key, value) :: members)) =
      twoFields? first second (.object members) := by
  obtain ⟨text, denotes, notFirst, notSecond⟩ := isOther
  have decoded := denotes.decode?_eq
  rw [twoFields?, twoFields?, namedMembers?_cons, decoded, Option.bind_some]
  cases namedMembers? members with
  | none => rfl
  | some named =>
      simp only [Option.map_some, field?_cons_of_ne notFirst,
        field?_cons_of_ne notSecond]

/-- The members of an object that are its fields and nothing else. -/
theorem twoFields?_members {firstKey secondKey : List TextPiece}
    (apart : first ≠ second)
    (firstNamed : TextPiece.Denotes firstKey first.toList)
    (secondNamed : TextPiece.Denotes secondKey second.toList)
    (first? second? : Option Document) :
    twoFields? first second
        (.object (member? firstKey first? ++ member? secondKey second?)) =
      some (first?, second?) := by
  have differ : first.toList ≠ second.toList :=
    fun same => apart (String.toList_inj.mp same)
  have firstDecoded := firstNamed.decode?_eq
  have secondDecoded := secondNamed.decode?_eq
  cases first? <;> cases second? <;>
    simp [twoFields?, member?, namedMembers?, field?, firstDecoded,
      secondDecoded, differ, differ.symm]

/-! ## Values -/

theorem natural?_number {value : Nat} (fits : value < 2 ^ 64) :
    natural? (.number (some value)) = some value := by
  have inside : (0 : Int) ≤ value ∧ (value : Int) ≤ 0xFFFFFFFFFFFFFFFF := by
    omega
  rw [natural?, integer?, if_pos inside]
  rfl

theorem word?_number (value : Int32) :
    word? (.number (some value.toInt)) = some value := by
  have lower := value.le_toInt
  have upper := value.toInt_lt
  have inside : -0x80000000 ≤ value.toInt ∧ value.toInt ≤ 0x7FFFFFFF := by
    omega
  rw [word?, integer?, if_pos inside, Option.map_some, Int32.ofInt_toInt]

end Document

/-- **Documents as trees.**  The library that reads texts as trees is
lawful. -/
theorem documentLibrary_lawful : @Library.Lawful documentLibrary where
  fromText decoder document text _ spaced := by
    show (Document.ofText? text).bind decoder = decoder document
    rw [Document.ofText?_eq_some_iff.mpr spaced, Option.bind_some]
  boolean _ := rfl
  natural _ fits := Document.natural?_number fits
  word value := Document.word?_number value
  optional_null _ := rfl
  optional_value decoder document notNull := by
    show Document.nullable? decoder document = _
    rw [Document.nullable?]
    exact notNull
  record_fields apart firstNamed secondNamed firstDecoded secondDecoded := by
    show Document.record? _ _ _ = _
    simp only [Document.record?,
      Document.twoFields?_members apart firstNamed secondNamed, firstDecoded,
      secondDecoded]
  record_perm first second members others perm := by
    show Document.record? _ _ _ = Document.record? _ _ _
    rw [Document.record?, Document.record?,
      Document.twoFields?_of_perm first.name second.name perm]
  record_other first second key value members isOther := by
    show Document.record? _ _ _ = Document.record? _ _ _
    rw [Document.record?, Document.record?,
      Document.twoFields?_cons_of_isOther value isOther]

end MiniMips.Json
