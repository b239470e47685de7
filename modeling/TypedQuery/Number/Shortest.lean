import TypedQuery.Text.Basic
import TypedQuery.Number.Decimal

/-!
# The shortest text of a double

A double is written with the fewest digits that read back as the same double; of two such
decimals with equally many digits the nearer is taken.

Counted in units of `10 ^ -1074`, every finite magnitude is a natural number, because a
power of two divides the same power of ten. A decimal with `n` digits near it is one of its
two neighbours on the grid of step `10 ^ (length - n)`, and whether a neighbour reads back
is decided by reading it. Seventeen digits always suffice. The exact value stands at the
end of the search, so that the result reads back by construction.

Positional notation is used from the fourth place after the point up to sixteen digits
before it; outside of that range the first digit is followed by a power of ten.
-/

set_option autoImplicit false

namespace TypedQuery

/-- How many units of `10 ^ -1074` make `2 ^ -1074`. -/
@[irreducible] def grainsOfUnit : Nat := Nat.pow 5 1074

namespace Magnitude

/-- A magnitude in units of `10 ^ -1074`. -/
def grains (magnitude : Magnitude) : Nat := magnitude.units * grainsOfUnit

/-- Whether a decimal reads back as a magnitude. -/
def readsBack (magnitude : Magnitude) (decimal : Decimal) : Bool :=
  Double.ofDecimal decimal == .finite false magnitude

/-- The decimal on the grid of step `10 ^ places` that is nearest to a magnitude among those that
read back. -/
def nearest? (magnitude : Magnitude) (places : Nat) : Option Decimal :=
  let step := Nat.pow 10 places
  let below : Decimal := ⟨false, magnitude.grains / step, (places : Int) - 1074⟩
  let above : Decimal := ⟨false, magnitude.grains / step + 1, (places : Int) - 1074⟩
  let belowIsNearer := roundHalfEven magnitude.grains step = magnitude.grains / step
  match magnitude.readsBack below, magnitude.readsBack above with
  | true, true => some (if belowIsNearer then below else above)
  | true, false => some below
  | false, true => some above
  | false, false => none

/-- The decimal with the fewest digits that reads back as a magnitude. -/
def shortest (magnitude : Magnitude) : Decimal :=
  let length := (Text.ofNat magnitude.grains).length
  ((List.range' 1 17).findSome? fun count => magnitude.nearest? (length - count)).getD
    ⟨false, magnitude.grains, -1074⟩

end Magnitude

namespace Double

/-- Digits with the point after the first `whole` of them; zeros fill what is missing. -/
def positional (digits : Text) (whole : Nat) : Text :=
  let fraction := digits.drop whole
  digits.take whole ++ List.replicate (whole - digits.length) '0' ++
    '.' :: (if fraction.isEmpty then ['0'] else fraction)

/-- The first digit, the others after a point, and a power of ten with a sign and at least two
digits. -/
def scientific (digits : Text) (power : Int) : Text :=
  let sign := if power < 0 then '-' else '+'
  let magnitude := Text.ofNat power.natAbs
  digits.take 1 ++ (if digits.length ≤ 1 then [] else '.' :: digits.drop 1) ++
    'e' :: sign :: (List.replicate (2 - magnitude.length) '0' ++ magnitude)

/-- The text of a decimal without its sign. -/
def decimalText (decimal : Decimal) : Text :=
  let written := Text.ofNat decimal.digits
  let digits := Text.dropRightWhile (· == '0') written
  let lead : Int := decimal.exponent + written.length - 1
  if lead < -4 ∨ 16 ≤ lead then scientific digits lead
  else if lead < 0 then '0' :: '.' :: (List.replicate (-lead - 1).toNat '0' ++ digits)
  else positional digits (lead + 1).toNat

/-- The text of a magnitude. -/
def magnitudeText (magnitude : Magnitude) : Text :=
  if magnitude = .zero then ['0', '.', '0'] else decimalText magnitude.shortest

/-- A sign only where it is a minus. -/
def signText (negative : Bool) : Text := if negative then ['-'] else []

/-- The shortest text of a double. -/
def text : Double → Text
  | .nan => ['n', 'a', 'n']
  | .infinite negative => signText negative ++ ['i', 'n', 'f']
  | .finite negative magnitude => signText negative ++ magnitudeText magnitude

end Double
end TypedQuery
