import MiniMips.Json.Document

/-!
Contract: what a library for JSON has to offer.

Owns: decoders, fields of records, and the operations by which a library makes
the decoders of values and applies them to texts.

Does not own: any such library, and what is relied on of one.
-/

namespace MiniMips.Json

/-- The value of a document, if it has one of this type. -/
abbrev Decoder (α : Type) := Document → Option α

/-- A field of a record, with the value that it has where it is left out. -/
structure RecordField (α : Type) where
  name : String
  decoder : Decoder α
  standard : α

/-- The value of a field, given the document that stands for it if there is
one. -/
def RecordField.value? {α : Type} (field : RecordField α) :
    Option Document → Option α
  | none => some field.standard
  | some document => field.decoder document

/-- A library for JSON. -/
class Library where
  /-- How deep the documents may be nested that are read. -/
  depthLimit : Nat
  /-- Decode what a text is a document of. -/
  fromText? : {α : Type} → Decoder α → String → Option α
  boolean : Decoder Bool
  /-- Unsigned integers of sixty-four bits. -/
  natural : Decoder Nat
  word : Decoder Int32
  /-- Values that may be null. -/
  optional : {α : Type} → Decoder α → Decoder (Option α)
  /-- Records of two fields. -/
  record : {α β : Type} → RecordField α → RecordField β → Decoder (α × β)

end MiniMips.Json
