import MiniMips.Numeral

/-!
Contract: the faults of a token list that is no program.

Owns: the causes, their wording, and the line that each is reported on.
-/

namespace MiniMips

inductive ParseFault where
  | unknownMnemonic (mnemonic : String)
  | operandMismatch (mnemonic expected found : String)
  | unresolvedLabel (label : String)
  /-- A label is declared again, after `firstLine`. -/
  | duplicateLabel (label : String) (firstLine : Nat)
  /-- An operand stands where a statement should begin. -/
  | expectedMnemonic (found : String)
  /-- A constant shift is longer than a word, or negative. -/
  | shiftOutOfRange (amount : Int32)
deriving DecidableEq, Repr

/-- Wording of a fault, after the line number. -/
def ParseFault.message : ParseFault → String
  | .unknownMnemonic mnemonic => "unknown mnemonic `" ++ mnemonic ++ "`"
  | .operandMismatch mnemonic expected found =>
      "`" ++ mnemonic ++ "` expects `" ++ expected ++ "`, found `" ++ found ++ "`"
  | .unresolvedLabel label => "unresolved label `" ++ label ++ "`"
  | .duplicateLabel label firstLine =>
      "label `" ++ label ++ "` already declared on line " ++
        Numeral.ofNat firstLine
  | .expectedMnemonic found => "expected a mnemonic, found `" ++ found ++ "`"
  | .shiftOutOfRange amount =>
      "shift amount " ++ Numeral.ofInt amount.toInt ++ " is outside 0..=31"

/-- The fault that a token list is refused for, with its line. -/
structure ParseError where
  line : Nat
  fault : ParseFault
deriving DecidableEq, Repr

def ParseError.message (parseError : ParseError) : String :=
  "line " ++ Numeral.ofNat parseError.line ++ ": " ++ parseError.fault.message

end MiniMips
