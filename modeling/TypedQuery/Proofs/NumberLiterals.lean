import TypedQuery.Proofs.Printing

/-!
# Numbers survive their literal

A number is written in one of four layouts: as an integer, with a point among its digits, with
zeros between the point and its digits, or with a power of ten. Each layout is a numeral for the
amount that its digits and its place value say (`Numeral.Denotes`), and all that matters of a
decimal is that amount, since a double is the rounding of an exact value.

The amount reads back. An integer below `10 ^ 16` is the exact value of the double that it was made
from, whether or not every integer of that size is a double, and an exact value is nearest to itself
(`Magnitude.isNearest_units`). Any other number is written by the decimal that the search for a
short one ends at, and the search tries each candidate by reading it
(`Magnitude.readsBack_shortest`).
So every finite number survives its literal, up to the sign of zero, and the numbers that are not
finite have no numeral (`Double.kept_or_refused`).
-/

set_option autoImplicit false

namespace TypedQuery

open Literal

namespace Numeral

/-! ## Amounts -/

/-- A text without a sign is a numeral for an amount. -/
inductive Denotes : Text → ℚ → Prop where
  | intro {mantissa exponent digits : Text} {places : ℕ} {power : ℤ}
      (pointed : Mantissa mantissa digits places) (raised : Power exponent power) :
      Denotes (mantissa ++ exponent) (worth digits * 10 ^ (power - places))

/-- A mantissa by itself denotes its digits divided by a power of ten. -/
theorem Mantissa.denotes {text digits : Text} {places : ℕ} (pointed : Mantissa text digits places) :
    Denotes text (worth digits * 10 ^ (-places : ℤ)) := by
  have denotes := Denotes.intro pointed .absent
  rwa [List.append_nil, zero_sub] at denotes

theorem Digits.denotes {run : Text} (digits : Digits run) : Denotes run (worth run) := by
  simpa using (Mantissa.whole digits).denotes

/-- The text of a sign is a sign. -/
theorem sign_signText (negative : Bool) : Sign (Double.signText negative) negative := by
  cases negative with
  | false => exact .absent
  | true => exact .minus

/-- A numeral for an amount, with a sign before it, is read as the double that is nearest to the
amount. -/
theorem Denotes.double?_eq {text : Text} {amount : ℚ} (denotes : Denotes text amount)
    {magnitude : Magnitude} (nearest : magnitude.IsNearest (amount * unitsOfOne))
    (negative : Bool) :
    double? (Double.signText negative ++ text) = some (.finite negative magnitude) := by
  cases denotes with
  | intro pointed raised =>
      have writes := Writes.intro (sign_signText negative) pointed raised
      exact (double?_eq_some_iff _ _).mpr ⟨_, magnitude, writes, nearest, rfl⟩

end Numeral

namespace Double

open Numeral

/-! ## Layouts -/

/-- Digits with the point after the first ones denote what they are worth at that point. -/
theorem denotes_positional {digits : Text} (run : Digits digits) {whole : ℕ} (some : 0 < whole) :
    Denotes (positional digits whole) (worth digits * 10 ^ (whole - digits.length : ℤ)) := by
  rcases Nat.lt_or_ge whole digits.length with inside | beyond
  · -- the point stands among the digits
    have before : Digits (digits.take whole) := by
      refine ⟨?_, fun c member => run.all c (List.mem_of_mem_take member)⟩
      rw [Ne, List.take_eq_nil_iff, not_or]
      exact ⟨some.ne', run.ne_nil⟩
    have after : ∀ c ∈ digits.drop whole, Text.isDigit c = true :=
      fun c member => run.all c (List.mem_of_mem_drop member)
    have denotes := (Mantissa.pointed before after).denotes
    have fraction : (digits.drop whole).isEmpty = false := by
      rw [List.isEmpty_eq_false_iff, Ne, List.drop_eq_nil_iff]
      omega
    rw [List.take_append_drop, List.length_drop] at denotes
    have layout : positional digits whole = digits.take whole ++ '.' :: digits.drop whole := by
      simp [positional, fraction, Nat.sub_eq_zero_of_le inside.le]
    rw [layout]
    convert denotes using 3
    omega
  · -- zeros fill the places up to the point, and one more stands after it
    have zeros := digits_append_zeros run (whole - digits.length)
    have denotes := (Mantissa.pointed zeros digits_zero.all).denotes
    have layout : positional digits whole =
        digits ++ List.replicate (whole - digits.length) '0' ++ '.' :: ['0'] := by
      simp [positional, List.take_of_length_le beyond, List.drop_of_length_le beyond]
    have one : worth ['0'] = 0 := worth_zeros 1
    rw [layout]
    convert denotes using 1
    rw [worth_append, worth_append_zeros, one, List.length_singleton]
    push_cast
    rw [← Nat.cast_sub beyond, zpow_natCast]
    ring

/-- Digits after zeros after the point. -/
theorem denotes_fraction {digits : Text} (run : Digits digits) (zeros : ℕ) :
    Denotes ('0' :: '.' :: (List.replicate zeros '0' ++ digits))
      (worth digits * 10 ^ (-(zeros + digits.length) : ℤ)) := by
  have denotes := (Mantissa.pointed digits_zero (digits_zeros_append zeros run).all).denotes
  have worth : Numeral.worth (['0'] ++ (List.replicate zeros '0' ++ digits)) = worth digits := by
    rw [← List.replicate_one, worth_zeros_append, worth_zeros_append]
  rw [worth, List.length_append, List.length_replicate, Nat.cast_add] at denotes
  exact denotes

/-- The first digit before the point, and a power of ten. -/
theorem denotes_scientific {digits : Text} (run : Digits digits) (power : ℤ) :
    Denotes (scientific digits power) (worth digits * 10 ^ (power + 1 - digits.length)) := by
  obtain ⟨first, later, rfl⟩ := List.exists_cons_of_ne_nil run.ne_nil
  have isFirst : Digits [first] :=
    ⟨by simp, List.forall_mem_singleton.mpr (run.all first List.mem_cons_self)⟩
  have isLater : ∀ c ∈ later, Text.isDigit c = true :=
    fun c member => run.all c (List.mem_cons_of_mem first member)
  have pointed : Mantissa ([first] ++ if later.length = 0 then [] else '.' :: later)
      (first :: later) later.length := by
    split
    · next none =>
        obtain rfl := List.length_eq_zero_iff.mp none
        exact .whole isFirst
    · exact .pointed isFirst isLater
  have raised : Power ('e' :: ((if power < 0 then ['-'] else ['+']) ++
      (List.replicate (2 - (Text.ofNat power.natAbs).length) '0' ++ Text.ofNat power.natAbs)))
      power := by
    have digits := digits_zeros_append (2 - (Text.ofNat power.natAbs).length)
      (digits_ofNat power.natAbs)
    have signed : Sign (if power < 0 then ['-'] else ['+']) (decide (power < 0)) := by
      by_cases below : power < 0
      · simpa [below] using Sign.minus
      · simpa [below] using Sign.plus
    convert Power.given (.inl rfl) signed digits using 1
    rw [worth_zeros_append, worth_ofNat]
    by_cases below : power < 0
    · simp only [below, decide_true, if_true]
      omega
    · simp only [below, decide_false, Bool.false_eq_true, if_false]
      omega
  have denotes := Denotes.intro pointed raised
  have place : power + 1 - ((first :: later).length : ℕ) = power - later.length := by
    rw [List.length_cons]
    omega
  rw [place]
  convert denotes using 1
  unfold scientific
  by_cases below : power < 0 <;> by_cases single : later.length = 0 <;> simp [below, single]

/-- The text of a decimal denotes the decimal. -/
theorem denotes_decimalText {decimal : Decimal} (some : decimal.digits ≠ 0) :
    Denotes (decimalText decimal) (decimal.digits * 10 ^ decimal.exponent) := by
  obtain ⟨dropped, isZero, written⟩ := Text.exists_dropped (· == '0') (Text.ofNat decimal.digits)
  have zeros : dropped = List.replicate dropped.length '0' :=
    List.eq_replicate_of_mem fun c member => beq_iff_eq.mp (isZero c member)
  have value := worth_ofNat decimal.digits
  have length := congrArg List.length written
  rw [written, zeros, worth_append_zeros] at value
  rw [List.length_append] at length
  have run : Digits (Text.dropRightWhile (· == '0') (Text.ofNat decimal.digits)) := by
    refine ⟨fun none => some ?_, fun c member => (digits_ofNat decimal.digits).all c ?_⟩
    · rw [← value, none]
      exact Nat.zero_mul _
    · rw [written]
      exact List.mem_append_left _ member
  simp only [decimalText]
  generalize Text.dropRightWhile (· == '0') (Text.ofNat decimal.digits) = digits at *
  generalize first : decimal.exponent + (Text.ofNat decimal.digits).length - 1 = lead
  -- in every layout the last digit that is kept has the same place value
  have amount : (decimal.digits * 10 ^ decimal.exponent : ℚ) =
      worth digits * 10 ^ (lead + 1 - digits.length : ℤ) := by
    have place : lead + 1 - digits.length = dropped.length + decimal.exponent := by omega
    rw [place, zpow_add₀ (by norm_num), zpow_natCast, ← value]
    push_cast
    ring
  rw [amount]
  split
  · exact denotes_scientific run lead
  · split
    · next below =>
        convert denotes_fraction run (-lead - 1).toNat using 3
        omega
    · next atLeast =>
        convert denotes_positional run (show 0 < (lead + 1).toNat by omega) using 3
        omega

end Double

/-! ## Amounts that read back -/

namespace Magnitude

/-- A magnitude is nearest to what it is worth. -/
theorem isNearest_units (magnitude : Magnitude) : magnitude.IsNearest magnitude.units := by
  have exact' : (magnitude.units : ℚ) - (magnitude.mantissa * 2 ^ magnitude.shift : ℕ) = 0 :=
    sub_self _
  constructor
  · intro other otherShift _
    rw [exact', abs_zero]
    exact abs_nonneg _
  · intro other otherShift _ differ tie
    rw [exact', abs_zero, eq_comm, abs_eq_zero, sub_eq_zero] at tie
    exact absurd (Nat.cast_injective tie).symm differ

/-- A magnitude that is a whole number is worth as many units. -/
theorem units_of_whole? {magnitude : Magnitude} {n : ℕ} (whole : magnitude.whole? = some n) :
    magnitude.units = n * unitsOfOne := by
  unfold whole? at whole
  split at whole
  · next divides =>
      obtain rfl := Option.some.inj whole
      exact (Nat.div_mul_cancel (Nat.dvd_of_mod_eq_zero divides)).symm
  · cases whole

/-- A grain is one part in a power of ten of one. -/
theorem five_pow_mul_two_pow (n : ℕ) : (5 : ℚ) ^ n * (10 ^ (-n : ℤ) * 2 ^ n) = 1 := by
  have ten : (10 : ℚ) ^ n = 5 ^ n * 2 ^ n := by rw [← mul_pow]; norm_num
  rw [zpow_neg, zpow_natCast, ten]
  field_simp

/-- The decimal of all grains is the exact value of a magnitude. -/
theorem count_grains (magnitude : Magnitude) :
    (⟨false, magnitude.grains, -1074⟩ : Decimal).count = magnitude.units := by
  have grain : (grainsOfUnit : ℚ) = 5 ^ 1074 := by
    unfold grainsOfUnit
    simp only [Nat.pow_eq, Nat.cast_pow, Nat.cast_ofNat]
  unfold Decimal.count grains
  simp only
  rw [Nat.cast_mul, mul_assoc, mul_assoc, grain, Decimal.unitsOfOne_eq]
  exact (congrArg _ (five_pow_mul_two_pow 1074)).trans (mul_one _)

theorem readsBack_iff (magnitude : Magnitude) (decimal : Decimal) :
    magnitude.readsBack decimal = true ↔
      decimal.negative = false ∧ magnitude.IsNearest decimal.count := by
  rw [readsBack, beq_iff_eq, Double.ofDecimal_eq_finite_iff]

theorem readsBack_grains (magnitude : Magnitude) :
    magnitude.readsBack ⟨false, magnitude.grains, -1074⟩ = true := by
  have nearest := magnitude.isNearest_units
  rw [← count_grains] at nearest
  exact (readsBack_iff magnitude _).mpr ⟨rfl, nearest⟩

/-- Of two candidates that are tried, one that passes is taken. -/
theorem passes_of_choice {α : Type} {passes : α → Bool} {first second chosen : α} {prefers : Prop}
    [Decidable prefers]
    (found : (match passes first, passes second with
      | true, true => some (if prefers then first else second)
      | true, false => some first
      | false, true => some second
      | false, false => none) = some chosen) : passes chosen = true := by
  cases isFirst : passes first <;> cases isSecond : passes second <;>
    simp only [isFirst, isSecond] at found
  · cases found
  · rwa [← Option.some.inj found]
  · rwa [← Option.some.inj found]
  · rw [← Option.some.inj found]
    split
    · exact isFirst
    · exact isSecond

/-- The definition as an equation of functions: applied to numbers, its match is not to be
evaluated. -/
theorem nearest?_eq : @nearest? = fun magnitude places =>
    let step := Nat.pow 10 places
    let below : Decimal := ⟨false, magnitude.grains / step, (places : Int) - 1074⟩
    let above : Decimal := ⟨false, magnitude.grains / step + 1, (places : Int) - 1074⟩
    match magnitude.readsBack below, magnitude.readsBack above with
    | true, true => some <|
        if roundHalfEven magnitude.grains step = magnitude.grains / step then below else above
    | true, false => some below
    | false, true => some above
    | false, false => none := by
  delta nearest?
  rfl

theorem readsBack_of_nearest? {magnitude : Magnitude} {places : ℕ} {decimal : Decimal}
    (found : magnitude.nearest? places = some decimal) : magnitude.readsBack decimal = true := by
  rw [nearest?_eq] at found
  beta_reduce at found
  generalize magnitude.readsBack = passes at found ⊢
  exact passes_of_choice found

/-- **The shortest decimal of a magnitude is read as the magnitude.** -/
theorem readsBack_shortest (magnitude : Magnitude) :
    magnitude.readsBack magnitude.shortest = true := by
  unfold shortest
  simp only
  cases found : (List.range' 1 17).findSome? fun count =>
      magnitude.nearest? ((Text.ofNat magnitude.grains).length - count) with
  | none => exact magnitude.readsBack_grains
  | some decimal =>
      obtain ⟨_, _, nearest⟩ := List.exists_of_findSome?_eq_some found
      exact readsBack_of_nearest? nearest

theorem isNearest_shortest (magnitude : Magnitude) :
    magnitude.IsNearest magnitude.shortest.count :=
  ((readsBack_iff _ _).mp magnitude.readsBack_shortest).2

/-- The shortest decimal of a magnitude has digits, unless the magnitude is that of zero. -/
theorem digits_shortest_ne_zero {magnitude : Magnitude} (some : magnitude ≠ .zero) :
    magnitude.shortest.digits ≠ 0 := by
  intro none
  have tiny : magnitude.shortest.isTiny = true := by simp [Decimal.isTiny, none]
  exact some (magnitude.isNearest_shortest.unique (Decimal.isNearest_zero_of_isTiny tiny))

end Magnitude

namespace Double

open Numeral

/-- The text of a magnitude denotes an amount that the magnitude is nearest to. -/
theorem exists_denotes_magnitudeText (magnitude : Magnitude) :
    ∃ amount, Denotes (magnitudeText magnitude) amount ∧
      magnitude.IsNearest (amount * unitsOfOne) := by
  unfold magnitudeText
  split
  · next none =>
      refine ⟨_, (Mantissa.pointed digits_zero digits_zero.all).denotes, ?_⟩
      have worthless : worth (['0'] ++ ['0']) = 0 := worth_zeros 2
      have nearest := Magnitude.zero.isNearest_units
      rw [(Magnitude.units_eq_zero_iff _).mpr rfl] at nearest
      rw [none, worthless, Nat.cast_zero, zero_mul, zero_mul]
      exact_mod_cast nearest
  · next some =>
      exact ⟨_, denotes_decimalText (Magnitude.digits_shortest_ne_zero some),
        magnitude.isNearest_shortest⟩

/-- The literal of a finite number is a numeral for it, but for the sign of zero. -/
theorem double?_literal (negative : Bool) (magnitude : Magnitude) :
    double? (literal (.finite negative magnitude)) =
      some (.finite (negative && magnitude != .zero) magnitude) := by
  have byText (notZero : magnitude ≠ .zero) : double? (text (.finite negative magnitude)) =
      some (.finite (negative && magnitude != .zero) magnitude) := by
    obtain ⟨amount, denotes, nearest⟩ := exists_denotes_magnitudeText magnitude
    have kept : (negative && magnitude != .zero) = negative := by simp [notZero]
    rw [text, denotes.double?_eq nearest, kept]
  unfold literal
  simp only
  split
  · next n whole =>
      have worth := Magnitude.units_of_whole? whole
      have zero_iff : magnitude = .zero ↔ n = 0 := by
        rw [← Magnitude.units_eq_zero_iff, worth, Nat.mul_eq_zero]
        exact or_iff_left unitsOfOne_pos.ne'
      split
      · have nearest := magnitude.isNearest_units
        rw [worth, Nat.cast_mul, ← worth_ofNat n] at nearest
        have sign : (magnitude != .zero) = (n != 0) := by
          rw [Bool.eq_iff_iff, bne_iff_ne, bne_iff_ne, Ne, Ne, zero_iff]
        rw [sign, (digits_ofNat n).denotes.double?_eq nearest]
      · next large =>
          refine byText fun zero => large ?_
          rw [zero_iff.mp zero]
          decide
  · next fraction =>
      refine byText fun zero => ?_
      have units := (Magnitude.units_eq_zero_iff _).mpr zero
      simp [Magnitude.whole?, units] at fraction

/-- Another number is read from the literal of a number, as a number parameter and as an argument,
and the two are equal. -/
structure KeptAs (number again : Double) : Prop where
  parsed : parse (Value.scalar (.num number)).type (Value.scalar (.num number)).literal =
    .ok (.scalar (.num again))
  coerced : coerce .num (Value.scalar (.num number)).literal = .ok (.num again)
  equal : again.agrees number = true

/-- The literal of a number is refused as a whole, for no numeral. -/
structure Refused (number : Double) : Prop where
  parsed : parse (Value.scalar (.num number)).type (Value.scalar (.num number)).literal =
    .error ⟨.invalidNumber, (Value.scalar (.num number)).literal, 0⟩
  coerced : coerce .num (Value.scalar (.num number)).literal =
    .error ⟨.invalidNumber, (Value.scalar (.num number)).literal, 0⟩

/-- A number that is read from the literal of a number is equal to it. -/
theorem agrees_of_double? {number again : Double} (read : double? number.literal = some again) :
    again.agrees number = true := by
  cases number with
  | nan => cases read
  | infinite negative => cases negative <;> cases read
  | finite negative magnitude =>
      obtain rfl := Option.some.inj ((double?_literal negative magnitude).symm.trans read)
      by_cases zero : magnitude = .zero <;> simp [agrees, zero]

theorem keptAs_of_double? {number again : Double} (read : double? number.literal = some again) :
    number.KeptAs again where
  parsed := by
    obtain ⟨decimal, magnitude, writes, nearest, rfl⟩ := (double?_eq_some_iff _ _).mp read
    exact (Writes.scalar (.num writes nearest)).parse_eq
  coerced := by
    have literal : (Value.scalar (.num number)).literal = number.literal := rfl
    rw [literal, coerce, read]
  equal := agrees_of_double? read

/-- **A finite number is kept by its literal, and any other number is refused.** Zero with a sign
comes back as zero without one. -/
theorem kept_or_refused (number : Double) :
    if number.isFinite then ∃ again, number.KeptAs again else number.Refused := by
  cases number with
  | nan => exact ⟨rfl, rfl⟩
  | infinite negative => cases negative <;> exact ⟨rfl, rfl⟩
  | finite negative magnitude => exact ⟨_, keptAs_of_double? (double?_literal negative magnitude)⟩

end Double
end TypedQuery
