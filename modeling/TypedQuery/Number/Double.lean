/-!
# Doubles

A number of a query is a double of 64 bits: an infinity, a value that is no number, or a
sign with a finite magnitude. A finite magnitude is counted in units of `2 ^ -1074`, the
least positive double. It is a mantissa below `2 ^ 53` shifted left by at most 2045 places,
and it is shifted only when the mantissa has all of its 53 bits; so each magnitude has one
representation, and equality of representations is equality of values.

The two zeros differ as representations and agree as numbers; the value that is no number
agrees with nothing, not even with itself (`Double.agrees`).
-/

set_option autoImplicit false

namespace TypedQuery

/-- How many units of `2 ^ -1074` make one. -/
@[irreducible] def unitsOfOne : Nat := Nat.pow 2 1074

/-- A finite magnitude: `mantissa * 2 ^ shift` units of `2 ^ -1074`. -/
structure Magnitude where
  mantissa : Nat
  shift : Nat
  mantissa_lt : mantissa < Nat.pow 2 53
  normal : shift = 0 ∨ Nat.pow 2 52 ≤ mantissa
  shift_le : shift ≤ 2045
  deriving DecidableEq

namespace Magnitude

/-- The magnitude of the two zeros. -/
def zero : Magnitude := ⟨0, 0, by decide, .inl rfl, by decide⟩

/-- How many units of `2 ^ -1074` a magnitude is worth. -/
def units (magnitude : Magnitude) : Nat := magnitude.mantissa * Nat.pow 2 magnitude.shift

/-- A magnitude that is a whole number, as that number. -/
def whole? (magnitude : Magnitude) : Option Nat :=
  if magnitude.units % unitsOfOne = 0 then some (magnitude.units / unitsOfOne) else none

/-- Only zero is worth no units. -/
theorem units_eq_zero_iff (magnitude : Magnitude) : magnitude.units = 0 ↔ magnitude = zero := by
  constructor
  · intro nothing
    obtain ⟨mantissa, shift, small, normal, within⟩ := magnitude
    have noMantissa : mantissa = 0 := by
      rcases Nat.mul_eq_zero.mp nothing with none | none
      · exact none
      · exact absurd none (Nat.ne_of_gt (Nat.two_pow_pos shift))
    have noShift : shift = 0 := by
      rcases normal with none | full
      · exact none
      · rw [noMantissa] at full
        exact absurd full (by decide)
    subst noMantissa noShift
    rfl
  · intro same
    subst same
    rfl

end Magnitude

/-- A double. -/
inductive Double where
  | nan
  | infinite (negative : Bool)
  | finite (negative : Bool) (magnitude : Magnitude)
  deriving DecidableEq

namespace Double

/-- A double that is neither infinite nor without value. -/
def isFinite : Double → Bool
  | .finite _ _ => true
  | _ => false

/-- Equality of numbers: the two zeros agree, and what is no number agrees with nothing. -/
def agrees : Double → Double → Bool
  | .nan, _ => false
  | .finite negative magnitude, .finite negative' magnitude' =>
      magnitude == magnitude' && (negative == negative' || magnitude == .zero)
  | x, y => x == y

end Double
end TypedQuery
