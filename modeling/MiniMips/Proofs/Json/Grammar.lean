import MiniMips.Json.Document
import MiniMips.Json.Token
import MiniMips.Proofs.Assembly.IntegerLiterals

/-!
Contract: the grammar of JSON.

Owns:
- the texts of numbers: plain integers, and numbers with a fraction or an
  exponent;
- the texts of strings, and the characters that a string denotes in UTF-16,
  where a character may be given by itself, by one code unit, or by two;
- the texts of tokens, with blanks around them, and the tokens of documents;
- how deep a document is nested.

Does not own: reading.  No text is read here.
-/

namespace MiniMips.Json

/-! ## Numbers -/

namespace Number

def IsDigits (digits : List Char) : Prop :=
  digits ≠ [] ∧ ∀ character ∈ digits, character.isDigit = true

/-- Digits behind a point, or nothing. -/
inductive Fraction : List Char → Prop where
  | absent : Fraction []
  | present {digits : List Char} (decimal : IsDigits digits) :
      Fraction ('.' :: digits)

/-- Digits behind a mark, with or without a sign, or nothing. -/
inductive Exponent : List Char → Prop where
  | absent : Exponent []
  | present {mark : Char} {sign digits : List Char}
      (marks : mark = 'e' ∨ mark = 'E')
      (signs : sign = [] ∨ sign = ['+'] ∨ sign = ['-'])
      (decimal : IsDigits digits) : Exponent (mark :: (sign ++ digits))

/-- The texts of numbers, with the integer that each denotes.  A plain integer
has no more zeros at the front than it needs, and neither has the whole part of
another number. -/
inductive Written : Option Int → List Char → Prop where
  | integer (value : Int) :
      Written (some value) (Numeral.ofInt value).toList
  | negativeZero : Written none ['-', '0']
  | fractional {sign fraction exponent : List Char} (whole : Nat)
      (signs : sign = [] ∨ sign = ['-']) (behindPoint : Fraction fraction)
      (behindMark : Exponent exponent) (marked : fraction ++ exponent ≠ []) :
      Written none
        (sign ++ (Numeral.decimalDigits whole ++ (fraction ++ exponent)))

end Number

/-! ## Strings -/

namespace TextPiece

/-- The letters of the named escapes, each with what it stands for. -/
def escapes : List (Char × Char) :=
  [('"', '"'), ('\\', '\\'), ('/', '/'), ('b', '\x08'), ('f', '\x0c'),
    ('n', '\n'), ('r', '\r'), ('t', '\t')]

/-- The texts of a piece. -/
inductive Written : TextPiece → List Char → Prop where
  | plain {value : Char} (printable : 32 ≤ value.toNat) (noQuote : value ≠ '"')
      (noEscape : value ≠ '\\') : Written (.character value) [value]
  | escaped {letter value : Char} (known : (letter, value) ∈ escapes) :
      Written (.character value) ['\\', letter]
  | numbered {digits : List Char} {unit : Nat} (four : digits.length = 4)
      (writes : Numeral.Writes 16 digits unit) :
      Written (.codeUnit unit) ('\\' :: 'u' :: digits)

/-- The texts of pieces, one after the other. -/
inductive Spelled : List TextPiece → List Char → Prop where
  | nil : Spelled [] []
  | cons {piece : TextPiece} {pieces : List TextPiece} {text others : List Char}
      (first : Written piece text) (rest : Spelled pieces others) :
      Spelled (piece :: pieces) (text ++ others)

/-- The characters that pieces denote.  Code units count in UTF-16. -/
inductive Denotes : List TextPiece → List Char → Prop where
  | nil : Denotes [] []
  | character {pieces : List TextPiece} {text : List Char} (value : Char)
      (others : Denotes pieces text) :
      Denotes (.character value :: pieces) (value :: text)
  | unit {pieces : List TextPiece} {text : List Char} (value : Char)
      (basic : value.toNat < 0x10000) (others : Denotes pieces text) :
      Denotes (.codeUnit value.toNat :: pieces) (value :: text)
  | pair {pieces : List TextPiece} {text : List Char} (value : Char)
      (supplementary : 0x10000 ≤ value.toNat)
      (others : Denotes pieces text) :
      Denotes
        (.codeUnit (0xD800 + (value.toNat - 0x10000) / 0x400) ::
          .codeUnit (0xDC00 + (value.toNat - 0x10000) % 0x400) :: pieces)
        (value :: text)

/-- Characters that stand for themselves denote themselves. -/
theorem Denotes.plain (text : List Char) :
    Denotes (text.map .character) text := by
  induction text with
  | nil => exact .nil
  | cons first others inductionHypothesis =>
      exact .character first inductionHypothesis

end TextPiece

/-! ## Tokens -/

namespace Token

/-- The texts of a token. -/
inductive Written : Token → List Char → Prop where
  | openBrace : Written .openBrace ['\x7b']
  | closeBrace : Written .closeBrace ['\x7d']
  | openBracket : Written .openBracket ['[']
  | closeBracket : Written .closeBracket [']']
  | colon : Written .colon [':']
  | comma : Written .comma [',']
  | null : Written .null ['n', 'u', 'l', 'l']
  | isTrue : Written (.boolean true) ['t', 'r', 'u', 'e']
  | isFalse : Written (.boolean false) ['f', 'a', 'l', 's', 'e']
  | number {denoted? : Option Int} {text : List Char}
      (written : Number.Written denoted? text) :
      Written (.number denoted?) text
  | string {pieces : List TextPiece} {text : List Char}
      (spelled : TextPiece.Spelled pieces text) :
      Written (.string pieces) ('"' :: (text ++ ['"']))

/-- Spaces, tabs and line ends. -/
def IsGap (gap : List Char) : Prop :=
  ∀ character ∈ gap, character = ' ' ∨ character = '\t' ∨ character = '\n' ∨
    character = '\r'

/-- The texts of tokens one after the other, with or without blanks before,
between and behind them. -/
inductive Spaced : List Token → List Char → Prop where
  | nil {gap : List Char} (blanks : IsGap gap) : Spaced [] gap
  | cons {token : Token} {tokens : List Token} {gap text rest : List Char}
      (blanks : IsGap gap) (first : Written token text)
      (others : Spaced tokens rest) :
      Spaced (token :: tokens) (gap ++ (text ++ rest))

end Token

/-! ## Documents -/

namespace Document

/-- Rows of tokens with commas between them. -/
def separated : List (List Token) → List Token
  | [] => []
  | first :: others => first ++ others.flatMap (Token.comma :: ·)

mutual

/-- The tokens of a document. -/
def tokens : Document → List Token
  | .null => [.null]
  | .boolean value => [.boolean value]
  | .number denoted? => [.number denoted?]
  | .string pieces => [.string pieces]
  | .array items => .openBracket :: (separated (rows items) ++ [.closeBracket])
  | .object members =>
      .openBrace :: (separated (keyedRows members) ++ [.closeBrace])

def rows : List Document → List (List Token)
  | [] => []
  | item :: items => item.tokens :: rows items

def keyedRows : List (List TextPiece × Document) → List (List Token)
  | [] => []
  | (key, value) :: members =>
      (.string key :: .colon :: value.tokens) :: keyedRows members

end

mutual

/-- How many arrays and objects are inside each other in a document. -/
def depth : Document → Nat
  | .null | .boolean _ | .number _ | .string _ => 0
  | .array items => itemsDepth items + 1
  | .object members => membersDepth members + 1

def itemsDepth : List Document → Nat
  | [] => 0
  | item :: items => max item.depth (itemsDepth items)

def membersDepth : List (List TextPiece × Document) → Nat
  | [] => 0
  | (_, value) :: members => max value.depth (membersDepth members)

end

end Document

end MiniMips.Json
