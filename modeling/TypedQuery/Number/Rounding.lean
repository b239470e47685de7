import TypedQuery.Number.Double

/-!
# Rounding to doubles

A ratio of natural numbers becomes the nearest double, and a ratio half-way between two
doubles goes to the one with the even mantissa. The ratio is counted in units of
`2 ^ -1074`; if the count needs more than 53 bits, the grid is made coarser by shifting,
until exactly 53 are left. Rounding up may carry into a 54th bit, which is the next shift.
A shift above 2045 is beyond the greatest double.
-/

set_option autoImplicit false

namespace TypedQuery

/-- The whole number nearest to `n / d`; a half goes to the even neighbour. -/
def roundHalfEven (n d : Nat) : Nat :=
  if 2 * (n % d) < d ∨ (2 * (n % d) = d ∧ n / d % 2 = 0) then n / d else n / d + 1

theorem le_roundHalfEven (n d : Nat) : n / d ≤ roundHalfEven n d := by
  unfold roundHalfEven
  split
  · exact Nat.le_refl _
  · exact Nat.le_succ _

theorem roundHalfEven_le (n d : Nat) : roundHalfEven n d ≤ n / d + 1 := by
  unfold roundHalfEven
  split
  · exact Nat.le_succ _
  · exact Nat.le_refl _

/-- How far a whole count is shifted so that at most 53 bits are left. -/
def excessBits (count : Nat) : Nat := count.log2 - 52

/-- After the shift at most 53 bits are left. -/
theorem shifted_lt (count : Nat) : count / Nat.pow 2 (excessBits count) < Nat.pow 2 53 := by
  simp only [Nat.pow_eq]
  rw [Nat.div_lt_iff_lt_mul (Nat.two_pow_pos _), ← Nat.pow_add]
  refine Nat.lt_of_lt_of_le Nat.lt_log2_self (Nat.pow_le_pow_right (by decide) ?_)
  unfold excessBits
  omega

/-- A count that is shifted at all keeps 53 bits. -/
theorem le_shifted (count : Nat) :
    excessBits count = 0 ∨ Nat.pow 2 52 ≤ count / Nat.pow 2 (excessBits count) := by
  by_cases few : excessBits count = 0
  · exact .inl few
  · refine .inr ?_
    have many : 52 + excessBits count = count.log2 := by
      unfold excessBits at few ⊢
      omega
    have positive : count ≠ 0 := by
      intro nothing
      subst nothing
      exact few rfl
    simp only [Nat.pow_eq]
    rw [Nat.le_div_iff_mul_le (Nat.two_pow_pos _), ← Nat.pow_add, many]
    exact Nat.log2_self_le positive

namespace Magnitude

/-- The magnitude of a rounded mantissa, where a mantissa of `2 ^ 53` is carried into the
shift. There is none beyond the greatest double. -/
def ofRounded? (mantissa shift : Nat) (small : mantissa ≤ Nat.pow 2 53)
    (normal : shift = 0 ∨ Nat.pow 2 52 ≤ mantissa) : Option Magnitude :=
  if carried : mantissa = Nat.pow 2 53 then
    if within : shift + 1 ≤ 2045 then
      some ⟨Nat.pow 2 52, shift + 1, by decide, .inr (Nat.le_refl _), within⟩
    else none
  else
    if within : shift ≤ 2045 then
      some ⟨mantissa, shift, Nat.lt_of_le_of_ne small carried, normal, within⟩
    else none

/-- The magnitude nearest to a ratio, or none if the ratio rounds beyond the greatest
double. -/
def ofRatio? (numerator denominator : Nat) : Option Magnitude :=
  let scaled := numerator * unitsOfOne
  let shift := excessBits (scaled / denominator)
  let step := Nat.pow 2 shift
  have twoSteps : scaled / denominator / step = scaled / (denominator * step) :=
    Nat.div_div_eq_div_mul scaled denominator step
  ofRounded? (roundHalfEven scaled (denominator * step)) shift
    (Nat.le_trans (roundHalfEven_le _ _) (twoSteps ▸ shifted_lt (scaled / denominator)))
    ((le_shifted (scaled / denominator)).imp id fun full =>
      Nat.le_trans (twoSteps ▸ full) (le_roundHalfEven _ _))

end Magnitude

namespace Double

/-- The double nearest to a ratio with a sign. -/
def ofRatio (negative : Bool) (numerator denominator : Nat) : Double :=
  match Magnitude.ofRatio? numerator denominator with
  | some magnitude => .finite negative magnitude
  | none => .infinite negative

/-- The double nearest to an integer, or none if the integer is beyond the range. -/
def ofInt? (i : Int) : Option Double :=
  (Magnitude.ofRatio? i.natAbs 1).map (.finite (decide (i < 0)))

end Double
end TypedQuery
