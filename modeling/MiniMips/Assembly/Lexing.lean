import MiniMips.Assembly.IntegerLiteral
import MiniMips.Assembly.Lexeme
import MiniMips.Assembly.Token
import MiniMips.Register

/-!
Contract: the tokens of a source text.

Owns:
- the faults of a lexeme that means nothing, with the line they are on;
- the token that a lexeme stands for, given what its line already holds;
- the tokens of a line and of a whole text.

Lines do not influence each other: a text is the sequence of its lines, and the
first line that cannot be read decides the fault.
-/

namespace MiniMips

inductive LexFault where
  /-- Text that begins no token, or an integer literal that is malformed. -/
  | unrecognizedToken (text : String)
  /-- A `$` before something that names no register. -/
  | unknownRegister (text : String)
  | integerOutOfRange (text : String)
deriving DecidableEq, Repr

/-- Wording of a fault, after the line number. -/
def LexFault.message : LexFault → String
  | .unrecognizedToken text => "unrecognized token `" ++ text ++ "`"
  | .unknownRegister text => "unknown register `" ++ text ++ "`"
  | .integerOutOfRange text =>
      "integer `" ++ text ++ "` does not fit in 32 bits"

/-- The first fault of a source text, with its line. -/
structure LexError where
  line : Nat
  fault : LexFault
deriving DecidableEq, Repr

def LexError.message (lexError : LexError) : String :=
  "line " ++ Numeral.ofNat lexError.line ++ ": " ++ lexError.fault.message

/-- The lines of a text.  Lines are what stands between line breaks, so a text
that ends in one has an empty last line. -/
def linesOfText (text : List Char) : List (List Char) :=
  text.foldr
    (fun character lines =>
      if character = '\n' then
        [] :: lines
      else
        match lines with
        | [] => [[character]]
        | line :: rest => (character :: line) :: rest)
    [[]]

namespace Lexeme

/-- Whether a lexeme is a bare name.  The first bare name of a line is its
mnemonic. -/
def isWord : Lexeme → Bool
  | .word _ => true
  | _ => false

/-- The kind of token that a lexeme stands for.  A bare name is a mnemonic,
kept in lower case, unless the line has one already; then it refers to a
label. -/
def tokenKind (mnemonicSeen : Bool) : Lexeme → Except LexFault TokenKind
  | .openParenthesis => .ok .openParenthesis
  | .closeParenthesis => .ok .closeParenthesis
  | .register name =>
      match Register.ofName? name with
      | some found => .ok (.register (UInt8.ofNat found.val))
      | none => .error (.unknownRegister (String.ofList ('$' :: name)))
  | .integer text =>
      match IntegerLiteral.read text with
      | .ok value => .ok (.immediate value)
      | .error .malformed => .error (.unrecognizedToken (String.ofList text))
      | .error .outOfRange => .error (.integerOutOfRange (String.ofList text))
  | .label name => .ok (.label (String.ofList name))
  | .word name =>
      if mnemonicSeen then
        .ok (.symbol (String.ofList name))
      else
        .ok (.mnemonic (String.ofList (name.map Char.toLower)))
  | .stray character =>
      .error (.unrecognizedToken (String.ofList [character]))

/-- The tokens of the lexemes of one line.  The first lexeme that stands for no
token decides the fault. -/
def tokens (line : Nat) : Bool → List Lexeme → Except LexError (List Token)
  | _, [] => .ok []
  | mnemonicSeen, lexeme :: rest =>
      match lexeme.tokenKind mnemonicSeen with
      | .error fault => .error ⟨line, fault⟩
      | .ok kind =>
          match tokens line (mnemonicSeen || lexeme.isWord) rest with
          | .error lexError => .error lexError
          | .ok more => .ok (⟨kind, String.ofList lexeme.text, line⟩ :: more)

end Lexeme

def tokensOfLine (line : Nat) (text : List Char) : Except LexError (List Token) :=
  Lexeme.tokens line false (Lexeme.split (codeOfLine text))

/-- The tokens of consecutive lines, the first of which is numbered `line`. -/
def tokensOfLines (line : Nat) :
    List (List Char) → Except LexError (List Token)
  | [] => .ok []
  | text :: rest =>
      match tokensOfLine line text with
      | .error lexError => .error lexError
      | .ok tokens =>
          match tokensOfLines (line + 1) rest with
          | .error lexError => .error lexError
          | .ok more => .ok (tokens ++ more)

/-- The tokens of a source text, whose lines are counted from one. -/
def lex (source : String) : Except LexError (List Token) :=
  tokensOfLines 1 (linesOfText source.toList)

end MiniMips
