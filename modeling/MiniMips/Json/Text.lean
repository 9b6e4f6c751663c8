import MiniMips.Numeral

/-!
Contract: the strings of JSON documents.

Owns:
- the pieces between the quotes: plain characters and numbered code units;
- reading the pieces up to the closing quote;
- the characters that pieces denote, which surrogate units denote in pairs.

A string whose units do not pair up is a well-formed part of a document, but
denotes no text.
-/

namespace MiniMips.Json

inductive TextPiece where
  /-- A character, plain or escaped by name. -/
  | character (value : Char)
  /-- A code unit given by its number. -/
  | codeUnit (value : Nat)
deriving DecidableEq, Repr

namespace TextPiece

def namedEscape? : Char → Option Char
  | '"' => some '"'
  | '\\' => some '\\'
  | '/' => some '/'
  | 'b' => some '\x08'
  | 'f' => some '\x0c'
  | 'n' => some '\n'
  | 'r' => some '\r'
  | 't' => some '\t'
  | _ => none

/-- Read the pieces of a string, whose opening quote is behind, up to its
closing quote.  Control characters may not stand for themselves, and a code
unit has exactly four hexadecimal digits. -/
def read? : List Char → Option (List TextPiece × List Char)
  | [] => none
  | '"' :: rest => some ([], rest)
  | '\\' :: 'u' :: first :: second :: third :: fourth :: rest =>
      match Numeral.value? 16 [first, second, third, fourth] with
      | none => none
      | some unit =>
          (read? rest).map (fun result => (.codeUnit unit :: result.1, result.2))
  | '\\' :: escape :: rest =>
      match namedEscape? escape with
      | none => none
      | some value =>
          (read? rest).map (fun result => (.character value :: result.1, result.2))
  | value :: rest =>
      if value.toNat < 32 || value == '\\' then
        none
      else
        (read? rest).map (fun result => (.character value :: result.1, result.2))

def isLeading (unit : Nat) : Bool :=
  decide (0xD800 ≤ unit ∧ unit < 0xDC00)

def isTrailing (unit : Nat) : Bool :=
  decide (0xDC00 ≤ unit ∧ unit < 0xE000)

/-- The character that a pair of units denotes. -/
def characterOfPair (leading trailing : Nat) : Char :=
  Char.ofNat (0x10000 + (leading - 0xD800) * 0x400 + (trailing - 0xDC00))

/-- The characters that pieces denote, if every surrogate unit belongs to a
pair. -/
def decode? : List TextPiece → Option (List Char)
  | [] => some []
  | .character value :: rest => (decode? rest).map (value :: ·)
  | .codeUnit leading :: .codeUnit trailing :: rest =>
      if isLeading leading then
        if isTrailing trailing then
          (decode? rest).map (characterOfPair leading trailing :: ·)
        else
          none
      else if isTrailing leading then
        none
      else
        (decode? (.codeUnit trailing :: rest)).map (Char.ofNat leading :: ·)
  | .codeUnit unit :: rest =>
      if isLeading unit || isTrailing unit then
        none
      else
        (decode? rest).map (Char.ofNat unit :: ·)

/-- Reading a string consumes at least the closing quote. -/
theorem length_read?_lt {characters : List Char}
    {result : List TextPiece × List Char}
    (found : read? characters = some result) :
    result.2.length < characters.length := by
  fun_induction read? characters generalizing result with
  | case1 => simp at found
  | case2 rest =>
      cases found
      simp
  | case3 => simp at found
  | case4 first second third fourth rest unit _ inductionHypothesis =>
      obtain ⟨inner, innerFound, rfl⟩ := Option.map_eq_some_iff.mp found
      have bound := inductionHypothesis innerFound
      simp only [List.length_cons]
      omega
  | case5 => simp at found
  | case6 escape rest _ value _ inductionHypothesis =>
      obtain ⟨inner, innerFound, rfl⟩ := Option.map_eq_some_iff.mp found
      have bound := inductionHypothesis innerFound
      simp only [List.length_cons]
      omega
  | case7 => simp at found
  | case8 value rest _ _ _ _ inductionHypothesis =>
      obtain ⟨inner, innerFound, rfl⟩ := Option.map_eq_some_iff.mp found
      have bound := inductionHypothesis innerFound
      simp only [List.length_cons]
      omega

end TextPiece

end MiniMips.Json
