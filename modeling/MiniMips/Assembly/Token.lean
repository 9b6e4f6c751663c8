import MiniMips.Column
import MiniMips.Numeral

/-!
Contract: the tokens of assembly text.

Owns: the kinds of token with the value that each carries, a token with its
text and line, and the line of a token listing.

Does not own: finding tokens in a source text.
-/

namespace MiniMips

/-- What a token is, with the value that was read from its text. -/
inductive TokenKind where
  /-- Declaration of a label; the name is without its colon. -/
  | label (name : String)
  | mnemonic (name : String)
  /-- A register operand.  Tokens built by hand may carry any byte. -/
  | register (index : UInt8)
  | immediate (value : Int32)
  | symbol (name : String)
  | openParenthesis
  | closeParenthesis
deriving DecidableEq, Repr

/-- Kind and value of a token as listings show them. -/
def TokenKind.text : TokenKind → String
  | .label name => "LABEL(" ++ name ++ ")"
  | .mnemonic name => "MNEMONIC(" ++ name ++ ")"
  | .register index => "REGISTER(" ++ Numeral.ofNat index.toNat ++ ")"
  | .immediate value => "IMMEDIATE(" ++ Numeral.ofInt value.toInt ++ ")"
  | .symbol name => "SYMBOL(" ++ name ++ ")"
  | .openParenthesis => "LPAREN"
  | .closeParenthesis => "RPAREN"

/-- A token with the text it was read from and its line, counted from one. -/
structure Token where
  kind : TokenKind
  text : String
  line : Nat
deriving DecidableEq, Repr

/-- Whether a token begins a statement: a label or a mnemonic does. -/
def Token.startsStatement (token : Token) : Bool :=
  match token.kind with
  | .label _ | .mnemonic _ => true
  | _ => false

def Token.listingText (token : Token) : String :=
  Column.alignRight 4 (Numeral.ofNat token.line) ++ "  " ++
    Column.alignLeft 20 token.kind.text ++ " " ++ token.text

end MiniMips
