/-!
Contract: the cut of one line of assembly text into lexemes.

Owns:
- the character classes of the language, all of them within ASCII;
- the lexemes, each of which knows the text it was cut from;
- the cut of a line, which takes every lexeme as long as it can be.

The cut never fails: a character that begins no lexeme becomes a lexeme of its
own.  What a lexeme means, and whether it means anything, is decided when it
becomes a token.
-/

namespace MiniMips

/-- Characters that separate lexemes and are otherwise ignored. -/
def isSeparator (character : Char) : Bool :=
  character == ' ' || character == '\t' || character == '\r' || character == ','

def isNameStart (character : Char) : Bool :=
  character.isAlpha || character == '_' || character == '.'

def isNameCharacter (character : Char) : Bool :=
  character.isAlphanum || character == '_' || character == '.'

/-- Characters that begin an integer literal: a sign or a decimal digit. -/
def isLiteralStart (character : Char) : Bool :=
  character == '-' || character == '+' || character.isDigit

def isLiteralCharacter (character : Char) : Bool :=
  character.isAlphanum || character == '_'

/-- The part of a line that is code: a comment runs from the first `#` to the
end of the line. -/
def codeOfLine (line : List Char) : List Char :=
  line.takeWhile (fun character => character != '#')

inductive Lexeme where
  | openParenthesis
  | closeParenthesis
  /-- A `$` and the name after it, which may be empty. -/
  | register (name : List Char)
  /-- A sign or digit and all that continues it. -/
  | integer (text : List Char)
  /-- A name directly followed by a colon. -/
  | label (name : List Char)
  /-- Any other name. -/
  | word (name : List Char)
  /-- A character that begins nothing else. -/
  | stray (character : Char)
deriving DecidableEq, Repr

namespace Lexeme

/-- The characters that a lexeme was cut from. -/
def text : Lexeme → List Char
  | .openParenthesis => ['(']
  | .closeParenthesis => [')']
  | .register name => '$' :: name
  | .integer text => text
  | .label name => name ++ [':']
  | .word name => name
  | .stray character => [character]

/-- The lexeme of a name, which is a label when a colon follows at once, and
what is left after it. -/
def ofName (name : List Char) : List Char → Lexeme × List Char
  | ':' :: rest => (.label name, rest)
  | rest => (.word name, rest)

/-- The lexeme that begins with `first`, which is no separator, and what is
left after it. -/
def next (first : Char) (rest : List Char) : Lexeme × List Char :=
  if first = '(' then
    (.openParenthesis, rest)
  else if first = ')' then
    (.closeParenthesis, rest)
  else if first = '$' then
    (.register (rest.takeWhile isNameCharacter), rest.dropWhile isNameCharacter)
  else if isLiteralStart first then
    (.integer (first :: rest.takeWhile isLiteralCharacter),
      rest.dropWhile isLiteralCharacter)
  else if isNameStart first then
    ofName (first :: rest.takeWhile isNameCharacter)
      (rest.dropWhile isNameCharacter)
  else
    (.stray first, rest)

theorem length_dropWhile_le (accepts : Char → Bool) (characters : List Char) :
    (characters.dropWhile accepts).length ≤ characters.length :=
  (List.dropWhile_sublist accepts).length_le

theorem length_ofName_le (name characters : List Char) :
    (ofName name characters).2.length ≤ characters.length := by
  unfold ofName
  split <;> simp

/-- A lexeme never leaves more than what stood after its first character. -/
theorem length_next_le (first : Char) (rest : List Char) :
    (next first rest).2.length ≤ rest.length := by
  unfold next
  split
  · exact Nat.le_refl _
  split
  · exact Nat.le_refl _
  split
  · exact length_dropWhile_le _ _
  split
  · exact length_dropWhile_le _ _
  split
  · exact Nat.le_trans (length_ofName_le _ _) (length_dropWhile_le _ _)
  · exact Nat.le_refl _

def split : List Char → List Lexeme
  | [] => []
  | first :: rest =>
      if isSeparator first then
        split rest
      else
        (next first rest).1 :: split (next first rest).2
termination_by characters => characters.length
decreasing_by
  · simp
  · have bound := length_next_le first rest
    simp only [List.length_cons]
    omega

end Lexeme

end MiniMips
