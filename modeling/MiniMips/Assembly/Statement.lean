import MiniMips.Assembly.ParseError
import MiniMips.Assembly.Token

/-!
Contract: statements, the units that a token list is made of.

Owns: label statements and instruction statements, and the grouping of tokens
into them.

An instruction statement is a mnemonic with the operand tokens that follow it
on its own line.  Any other operand token has no statement to belong to.
-/

namespace MiniMips

/-- A label declaration, or a mnemonic with its operand tokens. -/
inductive Statement where
  | label (name : String) (line : Nat)
  | instruction (mnemonic : String) (line : Nat) (operands : List Token)
deriving DecidableEq, Repr

namespace Statement

/-- Whether a token is an operand of a mnemonic on the given line. -/
def isOperandOn (line : Nat) (token : Token) : Bool :=
  decide (token.line = line) && !token.startsStatement

/-- Group tokens into statements.  The first operand token without a mnemonic
before it on its line is refused. -/
def ofTokens : List Token → Except ParseError (List Statement)
  | [] => .ok []
  | token :: rest =>
      match token.kind with
      | .label name =>
          match ofTokens rest with
          | .error parseError => .error parseError
          | .ok statements => .ok (.label name token.line :: statements)
      | .mnemonic name =>
          match ofTokens (rest.dropWhile (isOperandOn token.line)) with
          | .error parseError => .error parseError
          | .ok statements =>
              .ok (.instruction name token.line
                (rest.takeWhile (isOperandOn token.line)) :: statements)
      | _ => .error ⟨token.line, .expectedMnemonic token.text⟩
termination_by tokens => tokens.length
decreasing_by
  · simp
  · have bound := (List.dropWhile_sublist (isOperandOn token.line)
      (l := rest)).length_le
    simp only [List.length_cons]
    omega

end Statement

end MiniMips
