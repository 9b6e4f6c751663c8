/-!
Contract: positional numerals for natural numbers and integers.

Owns:
- the decimal text of a natural number and of an integer;
- the value of one digit in a radix, and of a run of digits.

Does not own: literals with a sign or a radix mark, and decimal places.
-/

namespace MiniMips.Numeral

/-- The decimal digit whose value is `value`, for values below ten. -/
def digitCharacter (value : Nat) : Char :=
  Char.ofNat ('0'.toNat + value)

/-- Decimal digits, most significant first.  Zero is written as one digit and
no other number begins with a zero. -/
def decimalDigits (value : Nat) : List Char :=
  if value < 10 then
    [digitCharacter value]
  else
    decimalDigits (value / 10) ++ [digitCharacter (value % 10)]
termination_by value

def ofNat (value : Nat) : String :=
  String.ofList (decimalDigits value)

/-- Decimal text of an integer: a minus sign stands before negative numbers
and nothing stands before the others. -/
def ofInt : Int → String
  | .ofNat magnitude => ofNat magnitude
  | .negSucc predecessor => "-" ++ ofNat (predecessor + 1)

/-- Value of a digit in a radix of at most thirty-six.  Letters of either case
continue the decimal digits; a digit too large for the radix has no value. -/
def digitValue? (radix : Nat) (character : Char) : Option Nat :=
  let value? : Option Nat :=
    if character.isDigit then
      some (character.toNat - '0'.toNat)
    else if character.isLower then
      some (character.toNat - 'a'.toNat + 10)
    else if character.isUpper then
      some (character.toNat - 'A'.toNat + 10)
    else
      none
  value?.filter (fun value => decide (value < radix))

/-- Continue a positional number by one more digit. -/
def appendDigit (radix accumulated : Nat) (character : Char) : Option Nat :=
  (digitValue? radix character).map
    (fun value => accumulated * radix + value)

/-- Value of a non-empty run of digits.  An empty run, and a run that holds
anything but digits of the radix, has no value. -/
def value? (radix : Nat) (digits : List Char) : Option Nat :=
  if digits.isEmpty then
    none
  else
    digits.foldlM (appendDigit radix) 0

end MiniMips.Numeral
