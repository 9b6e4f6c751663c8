import MiniMips.Json.Number
import MiniMips.Json.Text

/-!
Contract: the tokens of JSON documents.

Owns: the tokens, and the cut of a text into them.

Does not own: the order in which tokens may stand.
-/

namespace MiniMips.Json

inductive Token where
  | openBrace
  | closeBrace
  | openBracket
  | closeBracket
  | colon
  | comma
  | null
  | boolean (value : Bool)
  /-- A number, with the integer it denotes if it is written as one. -/
  | number (integer? : Option Int)
  | string (pieces : List TextPiece)
deriving DecidableEq, Repr

namespace Token

/-- Characters between tokens that mean nothing. -/
def isBlank (character : Char) : Bool :=
  character == ' ' || character == '\t' || character == '\n' || character == '\r'

/-- Read the token that begins with `first`, which is no blank. -/
def next? (first : Char) (rest : List Char) : Option (Token × List Char) :=
  match first, rest with
  | '\x7b', _ => some (.openBrace, rest)
  | '\x7d', _ => some (.closeBrace, rest)
  | '[', _ => some (.openBracket, rest)
  | ']', _ => some (.closeBracket, rest)
  | ':', _ => some (.colon, rest)
  | ',', _ => some (.comma, rest)
  | 'n', 'u' :: 'l' :: 'l' :: after => some (.null, after)
  | 't', 'r' :: 'u' :: 'e' :: after => some (.boolean true, after)
  | 'f', 'a' :: 'l' :: 's' :: 'e' :: after => some (.boolean false, after)
  | '"', _ =>
      (TextPiece.read? rest).map (fun found => (.string found.1, found.2))
  | _, _ =>
      (Number.read? (first :: rest)).map
        (fun found => (.number found.1, found.2))

/-- A token never leaves more than what stood after its first character. -/
theorem length_next?_le {first : Char} {rest : List Char}
    {found : Token × List Char} (equation : next? first rest = some found) :
    found.2.length ≤ rest.length := by
  unfold next? at equation
  split at equation
  · cases equation
    exact Nat.le_refl _
  · cases equation
    exact Nat.le_refl _
  · cases equation
    exact Nat.le_refl _
  · cases equation
    exact Nat.le_refl _
  · cases equation
    exact Nat.le_refl _
  · cases equation
    exact Nat.le_refl _
  · cases equation
    simp only [List.length_cons]
    omega
  · cases equation
    simp only [List.length_cons]
    omega
  · cases equation
    simp only [List.length_cons]
    omega
  · obtain ⟨inner, innerFound, rfl⟩ := Option.map_eq_some_iff.mp equation
    exact Nat.le_of_lt (TextPiece.length_read?_lt innerFound)
  · obtain ⟨inner, innerFound, rfl⟩ := Option.map_eq_some_iff.mp equation
    have bound := Number.length_read?_lt innerFound
    exact Nat.le_of_lt_succ bound

/-- The tokens of a text, if all of it can be cut into tokens. -/
def split? : List Char → Option (List Token)
  | [] => some []
  | first :: rest =>
      if isBlank first then
        split? rest
      else
        match _ : next? first rest with
        | none => none
        | some (token, after) => (split? after).map (token :: ·)
termination_by characters => characters.length
decreasing_by
  · simp
  · exact Nat.lt_succ_of_le (length_next?_le ‹_›)

end Token

end MiniMips.Json
