import MiniMips.Numeral

/-!
Contract: integer literals of assembly text and the words they denote.

Owns: the grammar of a literal, its mathematical value, and the range of values
that fit in a word.

Does not own: where a literal ends in a line.
-/

namespace MiniMips.IntegerLiteral

inductive Fault where
  /-- The text is not a sign and digits. -/
  | malformed
  | outOfRange
deriving DecidableEq, Repr

/-- Value of an unsigned literal: hexadecimal digits after `0x` or `0X`, and
decimal digits otherwise. -/
def magnitude? : List Char → Option Nat
  | '0' :: 'x' :: digits => Numeral.value? 16 digits
  | '0' :: 'X' :: digits => Numeral.value? 16 digits
  | digits => Numeral.value? 10 digits

def signedValue? : List Char → Option Int
  | '-' :: unsigned => (magnitude? unsigned).map (fun magnitude => -(magnitude : Int))
  | '+' :: unsigned => (magnitude? unsigned).map Int.ofNat
  | unsigned => (magnitude? unsigned).map Int.ofNat

/-- Whether a value is the signed or the unsigned reading of some word. -/
def fitsWord (value : Int) : Bool :=
  decide (-0x80000000 ≤ value ∧ value < 0x100000000)

/-- The word that a literal denotes.  A value above the signed range stands for
its bit pattern, so `0xFFFFFFFF` is minus one. -/
def read (text : List Char) : Except Fault Int32 :=
  match signedValue? text with
  | none => .error .malformed
  | some value =>
      if fitsWord value then .ok (Int32.ofInt value) else .error .outOfRange

end MiniMips.IntegerLiteral
