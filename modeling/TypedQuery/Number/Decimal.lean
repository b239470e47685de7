import TypedQuery.Number.Rounding

/-!
# Decimals

A decimal is a sign, a natural number of digits and a power of ten. Every numeral denotes
one exactly; a double is the decimal rounded once.

The power of ten may be enormous. A decimal of at least one unit at a power above 400 is
beyond every double, and one whose value is below `10 ^ -399` rounds to zero, so neither
needs the power itself.
-/

set_option autoImplicit false

namespace TypedQuery

/-- The number `digits * 10 ^ exponent` with a sign. -/
structure Decimal where
  negative : Bool
  digits : Nat
  exponent : Int
  deriving DecidableEq, Repr

namespace Decimal

/-- The numerator of a decimal as a ratio. -/
def numerator (decimal : Decimal) : Nat := decimal.digits * Nat.pow 10 decimal.exponent.toNat

/-- The denominator of a decimal as a ratio. -/
def denominator (decimal : Decimal) : Nat := Nat.pow 10 (-decimal.exponent).toNat

/-- No double is as large: there is a unit, and it is above `10 ^ 400`. -/
def isHuge (decimal : Decimal) : Bool := decimal.digits != 0 && 400 < decimal.exponent

/-- Below half of the least double: the value is under `2 ^ (log2 digits + 1)` units of
`10 ^ exponent`. -/
def isTiny (decimal : Decimal) : Bool :=
  decimal.digits == 0 || decimal.exponent + decimal.digits.log2 + 400 < 0

end Decimal

/-- The double nearest to a decimal. -/
def Double.ofDecimal (decimal : Decimal) : Double :=
  if decimal.isHuge then .infinite decimal.negative
  else if decimal.isTiny then .finite decimal.negative .zero
  else .ofRatio decimal.negative decimal.numerator decimal.denominator

end TypedQuery
