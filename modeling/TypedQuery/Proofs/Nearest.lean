import Mathlib.Algebra.Order.Field.Rat
import Mathlib.Algebra.Order.Ring.Abs
import Mathlib.Tactic.DefEqTransformations
import Mathlib.Tactic.FieldSimp
import Mathlib.Tactic.Linarith
import Mathlib.Tactic.NormNum
import Mathlib.Tactic.Positivity
import Mathlib.Tactic.Ring
import TypedQuery.Number.Decimal

/-!
# Decimals are rounded to the nearest double

A magnitude is the rounding of an exact count of units if no mantissa of 53 bits, whatever its
shift, is nearer to the count, and if its own mantissa is even where another one is equally near
(`Rounds`). Shifts have no bound there. So a count beyond the greatest double, which would be
rounded to a shift that no magnitude has, is the rounding of nothing.

Two roundings of one count are one magnitude (`Rounds.unique`): between two points that are
equally near lies no third one, so they are neighbours, and of two neighbours one is odd. The
double of a decimal is found by dividing, with a coarser grid for longer counts; it is finite
exactly where the exact value has a rounding, and that is the magnitude
(`Double.ofDecimal_eq_finite_iff`).
-/

set_option autoImplicit false

namespace TypedQuery

/-! ## Roundings -/

/-- `mantissa * 2 ^ shift` is a count rounded to 53 bits: no other mantissa of 53 bits is nearer
at any shift, and where one is equally near the mantissa is even. -/
structure Rounds (count : ℚ) (mantissa shift : ℕ) : Prop where
  nearest : ∀ other otherShift : ℕ, other < 2 ^ 53 →
    |count - (mantissa * 2 ^ shift : ℕ)| ≤ |count - (other * 2 ^ otherShift : ℕ)|
  even : ∀ other otherShift : ℕ, other < 2 ^ 53 → other * 2 ^ otherShift ≠ mantissa * 2 ^ shift →
    |count - (mantissa * 2 ^ shift : ℕ)| = |count - (other * 2 ^ otherShift : ℕ)| →
    mantissa % 2 = 0

/-- A magnitude is an exact count of units of `2 ^ -1074` rounded to the nearest double, with
ties to an even mantissa. -/
def Magnitude.IsNearest (magnitude : Magnitude) (count : ℚ) : Prop :=
  Rounds count magnitude.mantissa magnitude.shift

/-- How many units of `2 ^ -1074` a decimal is worth without its sign. -/
def Decimal.count (decimal : Decimal) : ℚ :=
  decimal.digits * (10 : ℚ) ^ decimal.exponent * unitsOfOne

/-! ## Points of the grid -/

/-- A mantissa of 53 bits that is shifted is worth less than the next shift begins with. -/
theorem point_lt_of_shift_lt {mantissa shift larger : ℕ} (small : mantissa < 2 ^ 53)
    (less : shift < larger) : mantissa * 2 ^ shift < 2 ^ 52 * 2 ^ larger := by
  have bound : 2 ^ (shift + 1) ≤ 2 ^ larger := Nat.pow_le_pow_right (by decide) less
  calc mantissa * 2 ^ shift < 2 ^ 53 * 2 ^ shift :=
        Nat.mul_lt_mul_of_pos_right small (Nat.two_pow_pos shift)
    _ = 2 ^ 52 * 2 ^ (shift + 1) := by rw [Nat.pow_succ 2 shift]; ring
    _ ≤ 2 ^ 52 * 2 ^ larger := Nat.mul_le_mul_left _ bound

/-- A point above another one has no smaller shift, if the lower one is shifted only with all of
its bits. -/
theorem shift_le_of_point_lt {mantissa shift other otherShift : ℕ}
    (normal : shift = 0 ∨ 2 ^ 52 ≤ mantissa) (small : other < 2 ^ 53)
    (below : mantissa * 2 ^ shift ≤ other * 2 ^ otherShift) : shift ≤ otherShift := by
  rcases normal with none | full
  · rw [none]
    exact Nat.zero_le _
  · by_contra less
    have above := point_lt_of_shift_lt small (Nat.lt_of_not_le less)
    have lower := Nat.mul_le_mul_right (2 ^ shift) full
    omega

/-- A point has one representation in which it is shifted only with all of its bits. -/
theorem point_injective {mantissa shift other otherShift : ℕ} (small : mantissa < 2 ^ 53)
    (normal : shift = 0 ∨ 2 ^ 52 ≤ mantissa) (small' : other < 2 ^ 53)
    (normal' : otherShift = 0 ∨ 2 ^ 52 ≤ other)
    (same : mantissa * 2 ^ shift = other * 2 ^ otherShift) :
    mantissa = other ∧ shift = otherShift := by
  have shifts : shift = otherShift :=
    Nat.le_antisymm (shift_le_of_point_lt normal small' same.le)
      (shift_le_of_point_lt normal' small same.ge)
  subst shifts
  exact ⟨Nat.eq_of_mul_eq_mul_right (Nat.two_pow_pos shift) same, rfl⟩

/-! ## A count has one rounding -/

/-- A point strictly between two points that are equally near to a count is nearer. -/
theorem nearer_of_between {count low middle high : ℚ} (above : low < middle)
    (below : middle < high) (tie : |count - low| = |count - high|) :
    |count - middle| < |count - low| := by
  rcases abs_cases (count - low) with ⟨same, _⟩ | ⟨same, _⟩ <;>
    rcases abs_cases (count - high) with ⟨same', _⟩ | ⟨same', _⟩ <;>
    rw [abs_lt] <;> constructor <;> linarith

/-- Two even mantissas are not both nearest, unless they are worth the same: the point next to
the lower one is odd, so it is not the higher one, and it lies between them. -/
theorem Rounds.not_lt {count : ℚ} {mantissa shift other otherShift : ℕ}
    (rounds : Rounds count mantissa shift) (rounds' : Rounds count other otherShift)
    (small : mantissa < 2 ^ 53) (normal : shift = 0 ∨ 2 ^ 52 ≤ mantissa)
    (small' : other < 2 ^ 53) : ¬ mantissa * 2 ^ shift < other * 2 ^ otherShift := by
  intro below
  have tie : |count - (mantissa * 2 ^ shift : ℕ)| = |count - (other * 2 ^ otherShift : ℕ)| :=
    le_antisymm (rounds.nearest other otherShift small') (rounds'.nearest mantissa shift small)
  have even := rounds.even other otherShift small' below.ne' tie
  have even' := rounds'.even mantissa shift small below.ne tie.symm
  obtain ⟨more, rfl⟩ := Nat.exists_eq_add_of_le (shift_le_of_point_lt normal small' below.le)
  -- in steps of the lower shift, the higher mantissa is even and above the lower one
  have steps : other * 2 ^ (shift + more) = other * 2 ^ more * 2 ^ shift := by
    rw [Nat.pow_add]; ring
  rw [steps] at below tie
  have next : mantissa < other * 2 ^ more := lt_of_mul_lt_mul_right below (Nat.zero_le _)
  have parity : other * 2 ^ more % 2 = 0 := by
    rw [Nat.mul_mod, even', Nat.zero_mul, Nat.zero_mod]
  have between : mantissa + 1 < other * 2 ^ more := by omega
  have positive : (0 : ℚ) < 2 ^ shift := by positivity
  have nearer : |count - ((mantissa + 1) * 2 ^ shift : ℕ)| <
      |count - (mantissa * 2 ^ shift : ℕ)| := by
    refine nearer_of_between ?_ ?_ tie
    · exact_mod_cast Nat.mul_lt_mul_of_pos_right (Nat.lt_succ_self mantissa) (Nat.two_pow_pos shift)
    · exact_mod_cast Nat.mul_lt_mul_of_pos_right between (Nat.two_pow_pos shift)
  exact absurd (rounds.nearest (mantissa + 1) shift (by omega)) (not_le.mpr nearer)

/-- **A count has at most one rounding** that is shifted only with all of its bits. -/
theorem Rounds.unique {count : ℚ} {mantissa shift other otherShift : ℕ}
    (rounds : Rounds count mantissa shift) (rounds' : Rounds count other otherShift)
    (small : mantissa < 2 ^ 53) (normal : shift = 0 ∨ 2 ^ 52 ≤ mantissa)
    (small' : other < 2 ^ 53) (normal' : otherShift = 0 ∨ 2 ^ 52 ≤ other) :
    mantissa = other ∧ shift = otherShift := by
  refine point_injective small normal small' normal' ?_
  exact Nat.le_antisymm (Nat.le_of_not_lt (rounds'.not_lt rounds small' normal' small))
    (Nat.le_of_not_lt (rounds.not_lt rounds' small normal small'))

theorem Magnitude.IsNearest.unique {magnitude other : Magnitude} {count : ℚ}
    (nearest : magnitude.IsNearest count) (nearest' : other.IsNearest count) :
    magnitude = other := by
  obtain ⟨mantissa, shift, small, normal, _⟩ := magnitude
  obtain ⟨mantissa', shift', small', normal', _⟩ := other
  obtain ⟨rfl, rfl⟩ := Rounds.unique nearest nearest' small normal small' normal'
  rfl

/-! ## Rounding a ratio -/

/-- The nearest whole number is at most a half away, and it is even if it is a half away. -/
theorem abs_sub_roundHalfEven_le (n : ℕ) {d : ℕ} (positive : 0 < d) :
    |(n / d : ℚ) - roundHalfEven n d| ≤ 1 / 2 ∧
      (|(n / d : ℚ) - roundHalfEven n d| = 1 / 2 → roundHalfEven n d % 2 = 0) := by
  have divided : (n : ℚ) = d * (n / d : ℕ) + (n % d : ℕ) := by
    exact_mod_cast (Nat.div_add_mod n d).symm
  have positive' : (0 : ℚ) < d := by exact_mod_cast positive
  have rest : (n / d : ℚ) - (n / d : ℕ) = (n % d : ℕ) / d := by
    rw [divided]
    field_simp
    ring
  have nonnegative : (0 : ℚ) ≤ (n % d : ℕ) / d := by positivity
  unfold roundHalfEven
  split
  · next down =>
      rw [rest, abs_of_nonneg nonnegative, div_le_iff₀ positive', div_eq_iff positive'.ne']
      constructor
      · have half : 2 * (n % d) ≤ d := by omega
        have half' : (2 : ℚ) * (n % d : ℕ) ≤ d := by exact_mod_cast half
        linarith
      · intro tie
        have half : 2 * (n % d) = d := by
          have : (2 : ℚ) * (n % d : ℕ) = d := by linarith
          exact_mod_cast this
        omega
  · next up =>
      have below : n % d < d := Nat.mod_lt n positive
      have whole : (n / d : ℚ) - (n / d + 1 : ℕ) = (n % d : ℕ) / d - 1 := by
        push_cast
        linarith
      have less : ((n % d : ℕ) / d : ℚ) < 1 := by
        rw [div_lt_one positive']
        exact_mod_cast below
      rw [whole, abs_of_neg (by linarith), neg_sub]
      have half : d ≤ 2 * (n % d) := by omega
      have half' : (1 / 2 : ℚ) ≤ (n % d : ℕ) / d := by
        rw [le_div_iff₀ positive']
        have : (d : ℚ) ≤ 2 * (n % d : ℕ) := by exact_mod_cast half
        linarith
      constructor
      · linarith
      · intro tie
        have same : ((n % d : ℕ) / d : ℚ) = 1 / 2 := by linarith
        rw [div_eq_iff positive'.ne'] at same
        have exact' : 2 * (n % d) = d := by
          have : (2 : ℚ) * (n % d : ℕ) = d := by linarith
          exact_mod_cast this
        omega

/-- A mantissa that is at most half a step away from a count, and even if it is half a step away,
is its rounding, if the count needs all 53 bits or nothing is shifted. -/
theorem rounds_of_half_step {count : ℚ} {mantissa shift : ℕ}
    (near : |count - (mantissa * 2 ^ shift : ℕ)| ≤ 2 ^ shift / 2)
    (even : |count - (mantissa * 2 ^ shift : ℕ)| = 2 ^ shift / 2 → mantissa % 2 = 0)
    (full : shift = 0 ∨ ((2 ^ 52 * 2 ^ shift : ℕ) : ℚ) ≤ count) : Rounds count mantissa shift := by
  have positive : (0 : ℚ) < 2 ^ shift := by positivity
  -- other points on the same grid are at least half a step away
  have onGrid : ∀ steps : ℕ, steps ≠ mantissa →
      (2 ^ shift / 2 : ℚ) ≤ |count - (steps * 2 ^ shift : ℕ)| := by
    intro steps differ
    have apart : (1 : ℚ) ≤ |(steps : ℚ) - mantissa| := by
      have whole : (1 : ℤ) ≤ |(steps : ℤ) - mantissa| :=
        Int.one_le_abs (sub_ne_zero.mpr (by exact_mod_cast differ))
      exact_mod_cast whole
    have scaled : (2 ^ shift : ℚ) ≤
        |(steps * 2 ^ shift : ℕ) - ((mantissa * 2 ^ shift : ℕ) : ℚ)| := by
      push_cast
      rw [← sub_mul, abs_mul, abs_of_pos positive]
      exact le_mul_of_one_le_left positive.le apart
    have triangle := abs_sub_le ((steps * 2 ^ shift : ℕ) : ℚ) count (mantissa * 2 ^ shift : ℕ)
    rw [abs_sub_comm _ count] at triangle
    linarith
  -- points of a finer grid lie below the first point with all bits
  have finer : ∀ other otherShift : ℕ, other < 2 ^ 53 → otherShift < shift →
      |count - (mantissa * 2 ^ shift : ℕ)| < |count - (other * 2 ^ otherShift : ℕ)| := by
    intro other otherShift small less
    have atLeast : ((2 ^ 52 * 2 ^ shift : ℕ) : ℚ) ≤ count := full.resolve_left (by omega)
    have lower : ((other * 2 ^ otherShift : ℕ) : ℚ) < (2 ^ 52 * 2 ^ shift : ℕ) := by
      exact_mod_cast point_lt_of_shift_lt small less
    have first : |count - (mantissa * 2 ^ shift : ℕ)| ≤ |count - (2 ^ 52 * 2 ^ shift : ℕ)| := by
      by_cases same : mantissa = 2 ^ 52
      · rw [same]
      · exact near.trans (onGrid (2 ^ 52) (Ne.symm same))
    rw [abs_of_nonneg (sub_nonneg.mpr atLeast)] at first
    rw [abs_of_pos (by linarith : 0 < count - ((other * 2 ^ otherShift : ℕ) : ℚ))]
    linarith
  have coarser : ∀ other otherShift : ℕ, shift ≤ otherShift →
      ∃ steps : ℕ, other * 2 ^ otherShift = steps * 2 ^ shift := by
    intro other otherShift atLeast
    obtain ⟨more, rfl⟩ := Nat.exists_eq_add_of_le atLeast
    exact ⟨other * 2 ^ more, by rw [Nat.pow_add]; ring⟩
  constructor
  · intro other otherShift small
    rcases Nat.lt_or_ge otherShift shift with less | atLeast
    · exact (finer other otherShift small less).le
    · obtain ⟨steps, same⟩ := coarser other otherShift atLeast
      rw [same]
      by_cases equal : steps = mantissa
      · rw [equal]
      · exact near.trans (onGrid steps equal)
  · intro other otherShift small differ tie
    rcases Nat.lt_or_ge otherShift shift with less | atLeast
    · exact absurd tie (finer other otherShift small less).ne
    · obtain ⟨steps, same⟩ := coarser other otherShift atLeast
      rw [same] at differ tie
      refine even (le_antisymm near ?_)
      rw [tie]
      exact onGrid steps fun equal => differ (by rw [equal])

namespace Magnitude

/-- A rounding is carried into the shift without changing what it is worth, so the magnitude that
is made of it is the nearest one, and there is a nearest one only if there is room for the
shift. -/
theorem ofRounded?_eq_some_iff {count : ℚ} {mantissa shift : ℕ}
    (rounds : Rounds count mantissa shift) (small : mantissa ≤ Nat.pow 2 53)
    (normal : shift = 0 ∨ Nat.pow 2 52 ≤ mantissa) (magnitude : Magnitude) :
    ofRounded? mantissa shift small normal = some magnitude ↔ magnitude.IsNearest count := by
  -- the point that the rounding is worth, with at most 53 bits
  obtain ⟨mantissa', shift', rounds', small', normal', made⟩ :
      ∃ mantissa' shift', ∃ _ : Rounds count mantissa' shift', ∃ small' : mantissa' < Nat.pow 2 53,
        ∃ normal' : shift' = 0 ∨ Nat.pow 2 52 ≤ mantissa',
          ofRounded? mantissa shift small normal =
            if within : shift' ≤ 2045 then some ⟨mantissa', shift', small', normal', within⟩
            else none := by
    by_cases carried : mantissa = Nat.pow 2 53
    · subst carried
      have same : 2 ^ 52 * 2 ^ (shift + 1) = Nat.pow 2 53 * 2 ^ shift := by
        rw [Nat.pow_eq, Nat.pow_succ 2 shift]
        ring
      refine ⟨2 ^ 52, shift + 1, ⟨?_, fun _ _ _ _ _ => by decide⟩, by decide,
        .inr (Nat.le_refl _), by rw [ofRounded?, dif_pos rfl]; rfl⟩
      rw [same]
      exact rounds.nearest
    · exact ⟨mantissa, shift, rounds, Nat.lt_of_le_of_ne small carried, normal,
        by rw [ofRounded?, dif_neg carried]⟩
  rw [made]
  constructor
  · intro found
    split at found
    · obtain rfl := Option.some.inj found
      exact rounds'
    · cases found
  · intro nearest
    obtain ⟨mantissa, shift, small, normal, within⟩ := magnitude
    obtain ⟨rfl, rfl⟩ := Rounds.unique rounds' nearest small' normal' small normal
    rw [dif_pos within]

/-- **The magnitude of a ratio is the nearest one**, and there is none only where no magnitude is
nearest. -/
theorem ofRatio?_eq_some_iff (numerator : ℕ) {denominator : ℕ} (positive : 0 < denominator)
    (magnitude : Magnitude) :
    ofRatio? numerator denominator = some magnitude ↔
      magnitude.IsNearest (numerator / denominator * unitsOfOne) := by
  let scaled := numerator * unitsOfOne
  let shift := excessBits (scaled / denominator)
  have count : (numerator / denominator * unitsOfOne : ℚ) = scaled / denominator := by
    rw [Nat.cast_mul]
    ring
  have step : 0 < denominator * 2 ^ shift := Nat.mul_pos positive (Nat.two_pow_pos shift)
  have positive' : (0 : ℚ) < denominator := by exact_mod_cast positive
  have power : (0 : ℚ) < 2 ^ shift := by positivity
  obtain ⟨near, even⟩ := abs_sub_roundHalfEven_le scaled step
  -- the distance in steps is the distance in units, divided by the step
  have distance : |(scaled / denominator : ℚ) -
        (roundHalfEven scaled (denominator * 2 ^ shift) * 2 ^ shift : ℕ)| =
      |(scaled / (denominator * 2 ^ shift : ℕ) : ℚ) -
        roundHalfEven scaled (denominator * 2 ^ shift)| * 2 ^ shift := by
    have scale (x : ℚ) : |x| * 2 ^ shift = |x * 2 ^ shift| := by rw [abs_mul, abs_of_pos power]
    rw [scale, sub_mul]
    congr 2
    · push_cast
      field_simp
    · push_cast
      ring
  have full : shift = 0 ∨ ((2 ^ 52 * 2 ^ shift : ℕ) : ℚ) ≤ scaled / denominator := by
    refine (le_shifted (scaled / denominator)).imp id fun full => ?_
    rw [Nat.pow_eq, Nat.pow_eq, Nat.le_div_iff_mul_le (Nat.two_pow_pos _)] at full
    rw [le_div_iff₀ positive']
    exact_mod_cast (Nat.le_div_iff_mul_le positive).mp full
  have rounds : Rounds (scaled / denominator)
      (roundHalfEven scaled (denominator * 2 ^ shift)) shift := by
    refine rounds_of_half_step ?_ (fun tie => even ?_) full
    · rw [distance]
      calc _ ≤ 1 / 2 * 2 ^ shift := mul_le_mul_of_nonneg_right near power.le
        _ = 2 ^ shift / 2 := by ring
    · rw [distance] at tie
      refine mul_right_cancel₀ power.ne' (tie.trans ?_)
      ring
  rw [count]
  unfold ofRatio?
  exact ofRounded?_eq_some_iff rounds _ _ magnitude

end Magnitude

/-! ## Decimals -/

theorem unitsOfOne_pos : 0 < unitsOfOne := by
  unfold unitsOfOne
  generalize 1074 = n
  exact Nat.two_pow_pos n

namespace Decimal

theorem denominator_pos (decimal : Decimal) : 0 < decimal.denominator :=
  Nat.pos_of_ne_zero (by simp [denominator])

/-- A decimal is the ratio of its numerator and its denominator. -/
theorem count_eq_ratio (decimal : Decimal) :
    decimal.count = decimal.numerator / decimal.denominator * unitsOfOne := by
  obtain ⟨negative, digits, exponent⟩ := decimal
  simp only [count, numerator, denominator, Nat.pow_eq, Nat.cast_mul, Nat.cast_pow, Nat.cast_ofNat]
  congr 1
  rcases le_total 0 exponent with up | down
  · obtain ⟨n, rfl⟩ := Int.eq_ofNat_of_zero_le up
    simp
  · obtain ⟨n, same⟩ := Int.eq_ofNat_of_zero_le (neg_nonneg.mpr down)
    obtain rfl : exponent = -(n : ℤ) := by omega
    simp [zpow_neg, div_eq_mul_inv]

theorem eight_pow_le_ten_pow (n : ℕ) : (2 : ℚ) ^ (3 * n) ≤ 10 ^ n := by
  rw [pow_mul]
  exact pow_le_pow_left₀ (by norm_num) (by norm_num) n

theorem unitsOfOne_eq : (unitsOfOne : ℚ) = 2 ^ 1074 := by
  unfold unitsOfOne
  simp only [Nat.pow_eq, Nat.cast_pow, Nat.cast_ofNat]

/-- No magnitude is nearest to a huge decimal: the point above all magnitudes is nearer. -/
theorem not_isNearest_of_isHuge {decimal : Decimal} (huge : decimal.isHuge = true)
    (magnitude : Magnitude) : ¬ magnitude.IsNearest decimal.count := by
  intro nearest
  obtain ⟨some, above⟩ : decimal.digits ≠ 0 ∧ 400 < decimal.exponent := by
    simpa [isHuge] using huge
  have large : ((2 ^ 52 * 2 ^ 2046 : ℕ) : ℚ) ≤ decimal.count := by
    have one : (1 : ℚ) ≤ decimal.digits := by exact_mod_cast Nat.one_le_iff_ne_zero.mpr some
    have ten : (10 : ℚ) ^ 401 ≤ 10 ^ decimal.exponent := by
      rw [← zpow_natCast]
      exact zpow_le_zpow_right₀ (by norm_num) (by exact_mod_cast above)
    have units : (0 : ℚ) ≤ 2 ^ 1074 := pow_nonneg (by norm_num) _
    have power : (0 : ℚ) ≤ 10 ^ decimal.exponent := zpow_nonneg (by norm_num) _
    calc ((2 ^ 52 * 2 ^ 2046 : ℕ) : ℚ) = 2 ^ (52 + 2046) := by
          rw [Nat.cast_mul, Nat.cast_pow, Nat.cast_pow, Nat.cast_ofNat, pow_add]
      _ ≤ 2 ^ (3 * 401 + 1074) := pow_le_pow_right₀ (by norm_num) (by norm_num)
      _ = 2 ^ (3 * 401) * 2 ^ 1074 := pow_add _ _ _
      _ ≤ 10 ^ decimal.exponent * 2 ^ 1074 :=
          mul_le_mul_of_nonneg_right ((eight_pow_le_ten_pow 401).trans ten) units
      _ ≤ decimal.digits * 10 ^ decimal.exponent * 2 ^ 1074 :=
          mul_le_mul_of_nonneg_right (le_mul_of_one_le_left power one) units
      _ = decimal.count := by rw [count, unitsOfOne_eq]
  have less : ((magnitude.mantissa * 2 ^ magnitude.shift : ℕ) : ℚ) < (2 ^ 52 * 2 ^ 2046 : ℕ) :=
    Nat.cast_lt.mpr
      (point_lt_of_shift_lt magnitude.mantissa_lt (Nat.lt_succ_of_le magnitude.shift_le))
  have closer := nearest.nearest (2 ^ 52) 2046 (by decide)
  rw [abs_of_nonneg (by linarith), abs_of_nonneg (by linarith)] at closer
  linarith

/-- A tiny decimal is worth less than half a unit. -/
theorem count_lt_of_isTiny {decimal : Decimal} (tiny : decimal.isTiny = true) :
    decimal.count < 1 / 2 := by
  rcases (Bool.or_eq_true _ _).mp tiny with none | below
  · rw [count, eq_of_beq none]
    norm_num
  · obtain ⟨negative, digits, exponent⟩ := decimal
    have below : exponent + digits.log2 + 400 < 0 := of_decide_eq_true below
    obtain ⟨n, same⟩ := Int.eq_ofNat_of_zero_le (show 0 ≤ -exponent by omega)
    obtain rfl : exponent = -(n : ℤ) := by omega
    have many : digits.log2 + 401 ≤ n := by omega
    have few : (digits : ℚ) < 2 ^ (digits.log2 + 1) := by exact_mod_cast Nat.lt_log2_self
    have eight := eight_pow_le_ten_pow n
    rw [count, unitsOfOne_eq, zpow_neg, zpow_natCast, ← div_eq_mul_inv]
    have ratio : (digits : ℚ) / 10 ^ n ≤ 2 ^ (digits.log2 + 1) / 2 ^ (3 * n) :=
      div_le_div₀ (by positivity) few.le (by positivity) eight
    calc (digits : ℚ) / 10 ^ n * 2 ^ 1074
        ≤ 2 ^ (digits.log2 + 1) / 2 ^ (3 * n) * 2 ^ 1074 :=
          mul_le_mul_of_nonneg_right ratio (by positivity)
      _ = 2 ^ (digits.log2 + 1075) / 2 ^ (3 * n) := by
          rw [div_mul_eq_mul_div, ← pow_add]
      _ < 1 / 2 := by
          rw [div_lt_div_iff₀ (by positivity) (by norm_num), ← pow_succ, one_mul]
          exact pow_lt_pow_right₀ (by norm_num) (by omega)

theorem isNearest_zero_of_isTiny {decimal : Decimal} (tiny : decimal.isTiny = true) :
    Magnitude.zero.IsNearest decimal.count := by
  have less := count_lt_of_isTiny tiny
  have nonnegative : 0 ≤ decimal.count :=
    mul_nonneg (mul_nonneg (Nat.cast_nonneg _) (zpow_nonneg (by norm_num) _)) (Nat.cast_nonneg _)
  refine rounds_of_half_step ?_ (fun _ => rfl) (.inl rfl)
  simp only [Magnitude.zero, Nat.zero_mul, Nat.cast_zero, sub_zero, pow_zero]
  rw [abs_of_nonneg nonnegative]
  exact less.le

end Decimal

/-- The definition as an equation of functions: applied to numbers, its match is not to be
evaluated. -/
theorem Double.ofRatio_eq : @Double.ofRatio = fun negative numerator denominator =>
    match Magnitude.ofRatio? numerator denominator with
    | some magnitude => .finite negative magnitude
    | none => .infinite negative := by
  delta Double.ofRatio
  rfl

theorem Double.ofRatio_eq_finite_iff (sign negative : Bool) (numerator denominator : ℕ)
    (magnitude : Magnitude) :
    Double.ofRatio sign numerator denominator = .finite negative magnitude ↔
      sign = negative ∧ Magnitude.ofRatio? numerator denominator = some magnitude := by
  rw [ofRatio_eq]
  beta_reduce
  cases Magnitude.ofRatio? numerator denominator with
  | none => simp
  | some found => simp

/-- **A decimal is rounded to the nearest double.** The double of a decimal is finite exactly
where a magnitude is nearest to its exact value, and then it is this magnitude with the sign of the
decimal. -/
theorem Double.ofDecimal_eq_finite_iff (decimal : Decimal) (negative : Bool)
    (magnitude : Magnitude) :
    Double.ofDecimal decimal = .finite negative magnitude ↔
      decimal.negative = negative ∧ magnitude.IsNearest decimal.count := by
  unfold Double.ofDecimal
  by_cases huge : decimal.isHuge = true
  · rw [if_pos huge]
    constructor
    · intro same
      cases same
    · rintro ⟨_, nearest⟩
      exact absurd nearest (Decimal.not_isNearest_of_isHuge huge magnitude)
  · rw [if_neg huge]
    by_cases tiny : decimal.isTiny = true
    · have zero := Decimal.isNearest_zero_of_isTiny tiny
      rw [if_pos tiny, Double.finite.injEq]
      exact and_congr_right' ⟨fun same => same ▸ zero, zero.unique⟩
    · rw [if_neg tiny, decimal.count_eq_ratio, ofRatio_eq_finite_iff,
        Magnitude.ofRatio?_eq_some_iff decimal.numerator decimal.denominator_pos]

end TypedQuery
