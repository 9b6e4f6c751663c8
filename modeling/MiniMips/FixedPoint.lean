import MiniMips.Numeral

/-!
Contract: decimal text of a double with a fixed number of places.

Owns:
- division of natural numbers rounded to the nearest, a tie going to the even
  neighbour;
- the exact value of a finite double as an integer times a power of two;
- the text with a given number of decimal places, rounded once from that exact
  value.

Does not own: the choice of places, which belongs to each report.
-/

namespace MiniMips.FixedPoint

/-- Nearest integer to a quotient.  A quotient half-way between two integers
goes to the even one. -/
def roundedQuotient (numerator denominator : Nat) : Nat :=
  let quotient := numerator / denominator
  let doubledRemainder := 2 * (numerator % denominator)
  if doubledRemainder < denominator then
    quotient
  else if denominator < doubledRemainder then
    quotient + 1
  else
    quotient + quotient % 2

/-- The parts of a double: its sign, its exponent field and its fraction
field. -/
structure Parts where
  negative : Bool
  exponent : Nat
  fraction : Nat
deriving DecidableEq, Repr

/-- The leading bit of a significand, which lies just above the fraction field
and is not stored. -/
def hiddenBit : Nat := 0x10000000000000

def Parts.ofBits (bits : UInt64) : Parts where
  negative := decide (0x8000000000000000 ≤ bits.toNat)
  exponent := bits.toNat / hiddenBit % 0x800
  fraction := bits.toNat % hiddenBit

/-- A double whose exponent field is all ones is infinite or not a number. -/
def Parts.isFinite (parts : Parts) : Bool :=
  decide (parts.exponent < 2047)

/-- Magnitude of a finite double in units of the last decimal place, rounded to the
nearest unit. -/
def Parts.scaled (places : Nat) (parts : Parts) : Nat :=
  let significand :=
    if parts.exponent = 0 then parts.fraction else parts.fraction + hiddenBit
  let exponent := max parts.exponent 1
  if 1075 ≤ exponent then
    significand * Nat.pow 2 (exponent - 1075) * Nat.pow 10 places
  else
    roundedQuotient (significand * Nat.pow 10 places)
      (Nat.pow 2 (1075 - exponent))

/-- The digits of a fraction, filled with zeros on the left up to the number of
places. -/
def fractionText (places fraction : Nat) : String :=
  String.ofList ((Numeral.decimalDigits fraction).leftpad places '0')

/-- A count of units of the last decimal place as decimal text.  Without places there
is no point. -/
def unitsText (places units : Nat) : String :=
  if places = 0 then
    Numeral.ofNat units
  else
    Numeral.ofNat (units / Nat.pow 10 places) ++ "." ++
      fractionText places (units % Nat.pow 10 places)

/-- Text of a double with a fixed number of decimal places. -/
def ofFloat (places : Nat) (value : Float) : String :=
  let parts := Parts.ofBits value.toBits
  let sign := if parts.negative then "-" else ""
  if parts.isFinite then
    sign ++ unitsText places (parts.scaled places)
  else if parts.fraction = 0 then
    sign ++ "inf"
  else
    "NaN"

end MiniMips.FixedPoint
