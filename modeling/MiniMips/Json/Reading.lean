import MiniMips.Json.Document
import MiniMips.Json.Token

/-!
Contract: reading JSON documents.

Owns:
- the reader, which takes one token at a time and keeps the arrays and objects
  that are still open on a stack;
- the document of a text.

Nesting is not limited.
-/

namespace MiniMips.Json

/-- An array or object that is still open.  What it holds so far is kept with
the last element first. -/
inductive Frame where
  | array (items : List Document)
  /-- An object in which the value of `key` is being read. -/
  | object (members : List (List TextPiece × Document)) (key : List TextPiece)

/-- What has been read of a document, and what may come next. -/
inductive Reading where
  | value (frames : List Frame)
  /-- An array was opened: a value or the end of the array may come. -/
  | itemOrClose (frames : List Frame)
  /-- An object was opened: a key or the end of the object may come. -/
  | keyOrClose (frames : List Frame)
  | key (members : List (List TextPiece × Document)) (frames : List Frame)
  | colon (members : List (List TextPiece × Document)) (key : List TextPiece)
      (frames : List Frame)
  /-- A value has been read: what may come depends on what is open. -/
  | after (document : Document) (frames : List Frame)

namespace Reading

def takeValue? (frames : List Frame) : Token → Option Reading
  | .null => some (.after .null frames)
  | .boolean truth => some (.after (.boolean truth) frames)
  | .number integer? => some (.after (.number integer?) frames)
  | .string pieces => some (.after (.string pieces) frames)
  | .openBracket => some (.itemOrClose frames)
  | .openBrace => some (.keyOrClose frames)
  | _ => none

def takeAfter? (document : Document) : List Frame → Token → Option Reading
  | .array items :: frames, .comma =>
      some (.value (.array (document :: items) :: frames))
  | .array items :: frames, .closeBracket =>
      some (.after (.array (document :: items).reverse) frames)
  | .object members name :: frames, .comma =>
      some (.key ((name, document) :: members) frames)
  | .object members name :: frames, .closeBrace =>
      some (.after (.object ((name, document) :: members).reverse) frames)
  | _, _ => none

def take? : Reading → Token → Option Reading
  | .value frames, token => takeValue? frames token
  | .itemOrClose frames, .closeBracket => some (.after (.array []) frames)
  | .itemOrClose frames, token => takeValue? (.array [] :: frames) token
  | .keyOrClose frames, .closeBrace => some (.after (.object []) frames)
  | .keyOrClose frames, .string name => some (.colon [] name frames)
  | .keyOrClose _, _ => none
  | .key members frames, .string name => some (.colon members name frames)
  | .key _ _, _ => none
  | .colon members name frames, .colon =>
      some (.value (.object members name :: frames))
  | .colon _ _ _, _ => none
  | .after document frames, token => takeAfter? document frames token

/-- The document that has been read, if it is complete. -/
def document? : Reading → Option Document
  | .after document [] => some document
  | _ => none

end Reading

namespace Document

def ofTokens? (tokens : List Token) : Option Document :=
  (tokens.foldlM Reading.take? (.value [])).bind Reading.document?

def ofText? (text : String) : Option Document :=
  (Token.split? text.toList).bind ofTokens?

end Document

end MiniMips.Json
