/-!
Contract: arithmetic and logic on thirty-two bit words.

Owns:
- the operations of the unit;
- the three groups that carry them out, each of which answers zero to an
  operation of another group;
- the choice of the group for an operation.

A word is a signed number; the unsigned operations read the same bits as a
natural number.  Results wrap, and only a division by zero has none.
-/

namespace MiniMips

inductive AluOperation where
  | add
  | sub
  | mul
  | div
  | divu
  | and
  | or
  | xor
  | nor
  | slt
  | sltu
  | sll
  | srl
  | sra
deriving DecidableEq, Repr

namespace Alu

def truthWord (truth : Bool) : Int32 :=
  if truth then 1 else 0

/-- The number of positions to shift by: the low five bits of a word. -/
def shiftAmount (word : Int32) : Int32 :=
  word &&& 31

/-- Sums, differences, products and quotients.  Signed quotients are truncated
toward zero, and the quotient that needs one bit more wraps. -/
def arithmetic (operation : AluOperation) (left right : Int32) : Option Int32 :=
  match operation with
  | .add => some (left + right)
  | .sub => some (left - right)
  | .mul => some (left * right)
  | .div => if right = 0 then none else some (left / right)
  | .divu =>
      if right = 0 then
        none
      else
        some (left.toUInt32 / right.toUInt32).toInt32
  | _ => some 0

/-- Bitwise operations and comparisons. -/
def logic (operation : AluOperation) (left right : Int32) : Int32 :=
  match operation with
  | .and => left &&& right
  | .or => left ||| right
  | .xor => left ^^^ right
  | .nor => ~~~(left ||| right)
  | .slt => truthWord (decide (left < right))
  | .sltu => truthWord (decide (left.toUInt32 < right.toUInt32))
  | _ => 0

/-- Shifts to the left, to the right with zeros, and to the right with copies
of the sign. -/
def shift (operation : AluOperation) (left right : Int32) : Int32 :=
  match operation with
  | .sll => left <<< shiftAmount right
  | .srl => (left.toUInt32 >>> (shiftAmount right).toUInt32).toInt32
  | .sra => left >>> shiftAmount right
  | _ => 0

def execute (operation : AluOperation) (left right : Int32) : Option Int32 :=
  match operation with
  | .add | .sub | .mul | .div | .divu => arithmetic operation left right
  | .and | .or | .xor | .nor | .slt | .sltu => some (logic operation left right)
  | .sll | .srl | .sra => some (shift operation left right)

end Alu

end MiniMips
