import Mathlib.Tactic.Linarith
import Mathlib.Tactic.Ring
import TypedQuery.Proofs.Nearest

/-!
# The integers that are doubles

An integer is rounded to a double, and there is none for it if it is rounded beyond the greatest
one. The greatest double is one step of `2 ^ 971` below `2 ^ 1024`, and what lies half-way between
the two is rounded up, since the last mantissa is odd. So the integers without a double are those
from half a step below `2 ^ 1024` on (`Double.ofInt?_eq_none_iff`).

How far a count is shifted depends on its own size. Both a rounded mantissa and the count that it
comes from are compared with the limit in units, so that one shift is left to look at, the last one
that a magnitude may have; the exponents are variables as long as no power is evaluated.
-/

set_option autoImplicit false

namespace TypedQuery

/-! ## Rounding up to a limit -/

/-- An even number is reached by rounding from half a step below it on. -/
theorem succ_le_roundHalfEven_iff {n d m : Nat} (positive : 0 < d) (even : (m + 1) % 2 = 0) :
    m + 1 ≤ roundHalfEven n d ↔ (2 * m + 1) * d ≤ 2 * n := by
  have divided : d * (n / d) + n % d = n := Nat.div_add_mod n d
  have rest : n % d < d := Nat.mod_lt n positive
  have steps : (2 * m + 1) * d = 2 * (d * m) + d := by ring
  rcases Nat.lt_trichotomy (n / d) m with less | same | more
  · have rounded := roundHalfEven_le n d
    have below : d * (n / d + 1) ≤ d * m := Nat.mul_le_mul_left d less
    rw [Nat.mul_add, Nat.mul_one] at below
    omega
  · rw [same] at divided
    unfold roundHalfEven
    rw [same]
    split <;> omega
  · have rounded := le_roundHalfEven n d
    have above : d * (m + 1) ≤ d * (n / d) := Nat.mul_le_mul_left d more
    rw [Nat.mul_add, Nat.mul_one] at above
    omega

/-- After its shift at most 53 bits of a count are left, and all of them if it is shifted at all. -/
theorem excessBits_bounds (count : Nat) :
    count < 2 ^ 53 * 2 ^ excessBits count ∧
      (excessBits count = 0 ∨ 2 ^ 52 * 2 ^ excessBits count ≤ count) := by
  have positive := Nat.two_pow_pos (excessBits count)
  refine ⟨(Nat.div_lt_iff_lt_mul positive).mp (shifted_lt count), ?_⟩
  exact (le_shifted count).imp id (Nat.le_div_iff_mul_le positive).mp

/-- A count is rounded beyond the mantissas of a shift from half a step below the next power of two
on: the last mantissa is odd, so half a step above it is rounded up. -/
theorem rounds_beyond_iff (count last : Nat) :
    2 ^ 53 * 2 ^ (last + 1) ≤
        roundHalfEven count (2 ^ excessBits count) * 2 ^ excessBits count ↔
      (2 ^ 54 - 1) * 2 ^ last ≤ count := by
  obtain ⟨below, above⟩ := excessBits_bounds count
  have small : roundHalfEven count (2 ^ excessBits count) ≤ 2 ^ 53 :=
    (roundHalfEven_le _ _).trans (shifted_lt count)
  have least := le_roundHalfEven count (2 ^ excessBits count)
  generalize excessBits count = shift at *
  have double : 2 ^ (last + 1) = 2 * 2 ^ last := by rw [Nat.pow_succ, Nat.mul_comm]
  rcases Nat.lt_trichotomy shift (last + 1) with less | rfl | more
  · -- a smaller shift ends below the limit, even with all bits
    have power : 2 ^ shift ≤ 2 ^ last := Nat.pow_le_pow_right (by decide) (by omega)
    have rounded := Nat.mul_le_mul_right (2 ^ shift) small
    have positive := Nat.two_pow_pos last
    omega
  · have reached := succ_le_roundHalfEven_iff (n := count) (m := 2 ^ 53 - 1)
      (Nat.two_pow_pos (last + 1)) (by decide)
    rw [Nat.mul_le_mul_right_iff (Nat.two_pow_pos (last + 1))]
    rw [double] at reached ⊢
    omega
  · -- a greater shift begins with the limit
    have power : 2 ^ (last + 2) ≤ 2 ^ shift := Nat.pow_le_pow_right (by decide) more
    have full : 2 ^ 52 * 2 ^ shift ≤ count := above.resolve_left (by omega)
    have kept : 2 ^ 52 ≤ roundHalfEven count (2 ^ shift) :=
      ((Nat.le_div_iff_mul_le (Nat.two_pow_pos shift)).mpr full).trans least
    have rounded := Nat.mul_le_mul_right (2 ^ shift) kept
    have next : 2 ^ (last + 2) = 2 * 2 ^ (last + 1) := by rw [Nat.pow_succ, Nat.mul_comm]
    omega

/-- There is no magnitude of a rounded mantissa that is worth as much as the first shift beyond the
last one. -/
theorem Magnitude.ofRounded?_eq_none_iff {mantissa shift : Nat} (small : mantissa ≤ Nat.pow 2 53)
    (normal : shift = 0 ∨ Nat.pow 2 52 ≤ mantissa) :
    ofRounded? mantissa shift small normal = none ↔
      2 ^ 53 * 2 ^ (2044 + 1) ≤ mantissa * 2 ^ shift := by
  simp only [Nat.pow_eq] at small normal
  unfold ofRounded?
  simp only [Nat.pow_eq]
  generalize top : 2044 + 1 = last
  have double : 2 ^ (last + 1) = 2 * 2 ^ last := by rw [Nat.pow_succ, Nat.mul_comm]
  have positive := Nat.two_pow_pos last
  split
  · next carried =>
      rw [carried, Nat.mul_le_mul_left_iff (by decide), Nat.pow_le_pow_iff_right (by decide)]
      split
      · simp only [reduceCtorEq, false_iff]
        omega
      · simp only [true_iff]
        omega
  · next carried =>
      split
      · next within =>
          have power : 2 ^ shift ≤ 2 ^ last := Nat.pow_le_pow_right (by decide) (by omega)
          have less : mantissa * 2 ^ shift < 2 ^ 53 * 2 ^ shift :=
            Nat.mul_lt_mul_of_pos_right (by omega) (Nat.two_pow_pos shift)
          simp only [reduceCtorEq, false_iff]
          omega
      · next beyond =>
          have power : 2 ^ (last + 1) ≤ 2 ^ shift := Nat.pow_le_pow_right (by decide) (by omega)
          have full : 2 ^ 52 ≤ mantissa := normal.resolve_left (by omega)
          have rounded := Nat.mul_le_mul_right (2 ^ shift) full
          simp only [true_iff]
          omega

/-! ## The range of doubles -/

namespace Double

/-- The least whole number that is rounded beyond the greatest double: half-way between that double
and `2 ^ 1024`. -/
def overflowThreshold : Nat := 2 ^ 1024 - 2 ^ 970

/-- Half a step below a power of two, in smaller units. -/
theorem half_step_mul (step units : Nat) :
    (2 ^ (54 + step) - 2 ^ step) * 2 ^ units = (2 ^ 54 - 1) * 2 ^ (step + units) := by
  rw [Nat.pow_add 2 54, ← Nat.sub_one_mul, Nat.mul_assoc, ← Nat.pow_add]

theorem unitsOfOne_eq_two_pow : unitsOfOne = 2 ^ 1074 :=
  Nat.cast_injective (R := ℚ) (by rw [Decimal.unitsOfOne_eq, Nat.cast_pow, Nat.cast_ofNat])

theorem overflowThreshold_mul :
    overflowThreshold * unitsOfOne = (2 ^ 54 - 1) * 2 ^ (970 + 1074) := by
  rw [overflowThreshold, unitsOfOne_eq_two_pow, ← half_step_mul]

/-- **There is no double for an integer exactly if it is at or beyond the threshold.** -/
theorem ofInt?_eq_none_iff (i : Int) : ofInt? i = none ↔ overflowThreshold ≤ i.natAbs := by
  have rounded : Magnitude.ofRatio? i.natAbs 1 = none ↔ 2 ^ 53 * 2 ^ (2044 + 1) ≤
      roundHalfEven (i.natAbs * unitsOfOne) (2 ^ excessBits (i.natAbs * unitsOfOne)) *
        2 ^ excessBits (i.natAbs * unitsOfOne) := by
    unfold Magnitude.ofRatio?
    rw [Magnitude.ofRounded?_eq_none_iff]
    simp only [Nat.div_one, Nat.one_mul, Nat.pow_eq]
  rw [ofInt?, Option.map_eq_none_iff, rounded, rounds_beyond_iff, ← overflowThreshold_mul,
    Nat.mul_le_mul_right_iff unitsOfOne_pos]

end Double
end TypedQuery
