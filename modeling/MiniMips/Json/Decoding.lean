import MiniMips.Json.Library
import MiniMips.Json.Reading

/-!
Contract: decoding JSON documents that were read as trees.

Owns:
- records as documents: an object with some of the fields, or an array that
  begins with some of them;
- the values that a document may stand for;
- the library that reads a text as a tree and decodes this.

An object may have other members besides the fields.  Their values are read as
JSON and otherwise ignored.  A field may be given once.
-/

namespace MiniMips.Json

namespace Document

/-- The members of an object with their keys as text, if every key denotes
one. -/
def namedMembers? (members : List (List TextPiece × Document)) :
    Option (List (List Char × Document)) :=
  members.mapM (fun entry =>
    (TextPiece.decode? entry.1).map (fun key => (key, entry.2)))

/-- The value of a field among named members: `some none` where it is missing,
and none where it is repeated. -/
def field? (members : List (List Char × Document)) (name : String) :
    Option (Option Document) :=
  match members.filter (fun entry => decide (entry.1 = name.toList)) with
  | [] => some none
  | [entry] => some (some entry.2)
  | _ => none

/-- The values of the two fields of a record, each of which may be missing. -/
def twoFields? (first second : String) :
    Document → Option (Option Document × Option Document)
  | .array [] => some (none, none)
  | .array [firstValue] => some (some firstValue, none)
  | .array [firstValue, secondValue] => some (some firstValue, some secondValue)
  | .object members =>
      match namedMembers? members with
      | none => none
      | some named =>
          match field? named first, field? named second with
          | some firstValue?, some secondValue? =>
              some (firstValue?, secondValue?)
          | _, _ => none
  | _ => none

def boolean? : Document → Option Bool
  | .boolean value => some value
  | _ => none

def integer? (least greatest : Int) : Document → Option Int
  | .number (some value) =>
      if least ≤ value ∧ value ≤ greatest then some value else none
  | _ => none

def natural? (document : Document) : Option Nat :=
  (document.integer? 0 0xFFFFFFFFFFFFFFFF).map Int.toNat

def word? (document : Document) : Option Int32 :=
  (document.integer? (-0x80000000) 0x7FFFFFFF).map Int32.ofInt

def nullable? {α : Type} (read? : Document → Option α) :
    Document → Option (Option α)
  | .null => some none
  | document => (read? document).map some

def record? {α β : Type} (first : RecordField α) (second : RecordField β)
    (document : Document) : Option (α × β) :=
  match document.twoFields? first.name second.name with
  | none => none
  | some (firstDocument?, secondDocument?) =>
      match first.value? firstDocument?, second.value? secondDocument? with
      | some firstValue, some secondValue => some (firstValue, secondValue)
      | _, _ => none

end Document

/-- The library that decodes documents as trees.  Documents that are nested
deeper than the limit are read as well, but this is not relied on. -/
instance documentLibrary : Library where
  depthLimit := 127
  fromText? decoder text := (Document.ofText? text).bind decoder
  boolean := Document.boolean?
  natural := Document.natural?
  word := Document.word?
  optional := Document.nullable?
  record := Document.record?

end MiniMips.Json
