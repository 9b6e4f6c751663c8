import MiniMips.Assembly.Token

/-!
Contract: operands and the tokens they are written with.

Owns:
- the operands of a statement and the text that shows each in a diagnostic;
- the grouping of operand tokens, which fails only for misplaced parentheses.

Does not own: whether operands suit an operation.
-/

namespace MiniMips

inductive Operand where
  | register (index : UInt8)
  | immediate (value : Int32)
  | symbol (name : String)
  /-- A number added to a register. -/
  | memory (offset : Int32) (base : UInt8)
deriving DecidableEq, Repr

namespace Operand

/-- Text of an operand in a diagnostic, with registers by number. -/
def text : Operand → String
  | .register index => "$" ++ Numeral.ofNat index.toNat
  | .immediate value => Numeral.ofInt value.toInt
  | .symbol name => name
  | .memory offset base =>
      Numeral.ofInt offset.toInt ++ "($" ++ Numeral.ofNat base.toNat ++ ")"

/-- Group the kinds of operand tokens into operands.

A parenthesis opens a memory operand, which takes the number directly before it
as its offset and otherwise has offset zero.  A parenthesis that does not hold
exactly one register makes the whole list no operands. -/
def ofKinds? : List TokenKind → Option (List Operand)
  | [] => some []
  | .immediate offset :: .openParenthesis :: .register base ::
      .closeParenthesis :: rest =>
      (ofKinds? rest).map (Operand.memory offset base :: ·)
  | .immediate _ :: .openParenthesis :: _ => none
  | .openParenthesis :: .register base :: .closeParenthesis :: rest =>
      (ofKinds? rest).map (Operand.memory 0 base :: ·)
  | .register index :: rest => (ofKinds? rest).map (Operand.register index :: ·)
  | .immediate value :: rest => (ofKinds? rest).map (Operand.immediate value :: ·)
  | .symbol name :: rest => (ofKinds? rest).map (Operand.symbol name :: ·)
  | _ => none

def ofTokens? (tokens : List Token) : Option (List Operand) :=
  ofKinds? (tokens.map Token.kind)

end Operand

end MiniMips
