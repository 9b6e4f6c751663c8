import MiniMips.Json.Text

/-!
Contract: JSON documents as trees.

Owns: the tree of a document, in which members keep their order and their
repetitions.

Does not own: the texts of documents, and reading them.
-/

namespace MiniMips.Json

inductive Document where
  | null
  | boolean (value : Bool)
  | number (integer? : Option Int)
  | string (pieces : List TextPiece)
  | array (items : List Document)
  | object (members : List (List TextPiece × Document))

end MiniMips.Json
