import Mathlib.Data.Nat.Digits.Defs
import Mathlib.Tactic.Ring
import TypedQuery.Number.Numeral
import TypedQuery.Proofs.Nearest
import TypedQuery.Proofs.Runs

/-!
# The grammar of numerals

A numeral is a sign that may be missing, digits with a point that may be missing, and a power of
ten that may be missing (`Numeral.Writes`). Each part is a relation between texts and what they
say; how a text is divided into the parts is left open.

Reading divides a text from left to right, and takes as many digits as there are. Nothing else is
possible: no part starts with a character that may continue the part before it. So a text is read
as a decimal exactly if the grammar writes the decimal so (`Numeral.decimal?_eq_some_iff`), and as
a double exactly if that is the nearest one to such a decimal (`Numeral.double?_eq_some_iff`).
-/

set_option autoImplicit false

namespace TypedQuery

namespace Numeral

/-! ## The parts of a numeral -/

/-- One or more digits. -/
structure Digits (run : Text) : Prop where
  ne_nil : run ≠ []
  all : ∀ c ∈ run, Text.isDigit c = true

/-- What digits are worth in the positional system. -/
def worth (run : Text) : ℕ :=
  Nat.ofDigits 10 (run.reverse.map fun c => (Text.digitValue? c).getD 0)

/-- A sign that may be missing, and whether it says minus. -/
inductive Sign : Text → Bool → Prop where
  | absent : Sign [] false
  | plus : Sign ['+'] false
  | minus : Sign ['-'] true

/-- Digits with a point that may be missing: all of the digits, and how many of them stand after
the point. -/
inductive Mantissa : Text → Text → ℕ → Prop where
  | whole {run : Text} (digits : Digits run) : Mantissa run run 0
  | pointed {run fraction : Text} (digits : Digits run)
      (more : ∀ c ∈ fraction, Text.isDigit c = true) :
      Mantissa (run ++ '.' :: fraction) (run ++ fraction) fraction.length
  | fractional {fraction : Text} (digits : Digits fraction) :
      Mantissa ('.' :: fraction) fraction fraction.length

/-- A power of ten that may be missing. -/
inductive Power : Text → ℤ → Prop where
  | absent : Power [] 0
  | given {mark : Char} {sign run : Text} {negative : Bool} (isMark : mark = 'e' ∨ mark = 'E')
      (signed : Sign sign negative) (digits : Digits run) :
      Power (mark :: (sign ++ run)) (if negative then -(worth run : ℤ) else worth run)

/-- A text writes a decimal as a numeral. -/
inductive Writes : Text → Decimal → Prop where
  | intro {sign mantissa exponent digits : Text} {negative : Bool} {places : ℕ} {power : ℤ}
      (signed : Sign sign negative) (pointed : Mantissa mantissa digits places)
      (raised : Power exponent power) :
      Writes (sign ++ (mantissa ++ exponent)) ⟨negative, worth digits, power - places⟩

/-! ## Characters of numerals -/

/-- The signs, the point and the letters of the power. -/
def marks : List Char := ['+', '-', '.', 'e', 'E']

/-- No mark is a digit. -/
theorem isDigit_of_mem_marks {c : Char} (mark : c ∈ marks) : Text.isDigit c = false := by
  simp only [marks, List.mem_cons, List.not_mem_nil, or_false] at mark
  rcases mark with rfl | rfl | rfl | rfl | rfl <;> rfl

/-- A text of digits and marks. -/
def Marked (text : Text) : Prop := ∀ c ∈ text, Text.isDigit c = true ∨ c ∈ marks

theorem Marked.append {text more : Text} (first : Marked text) (second : Marked more) :
    Marked (text ++ more) := List.forall_mem_append.mpr ⟨first, second⟩

theorem Marked.mark {c : Char} {text : Text} (mark : c ∈ marks) (later : Marked text) :
    Marked (c :: text) := List.forall_mem_cons.mpr ⟨.inr mark, later⟩

theorem marked_digits {run : Text} (all : ∀ c ∈ run, Text.isDigit c = true) : Marked run :=
  fun c member => .inl (all c member)

theorem Sign.marked {sign : Text} {negative : Bool} (signed : Sign sign negative) :
    Marked sign := by
  cases signed with
  | absent => exact List.forall_mem_nil _
  | plus => exact .mark (by decide) (List.forall_mem_nil _)
  | minus => exact .mark (by decide) (List.forall_mem_nil _)

theorem Mantissa.marked {text digits : Text} {places : ℕ} (pointed : Mantissa text digits places) :
    Marked text := by
  cases pointed with
  | whole run => exact marked_digits run.all
  | pointed run more =>
      exact (marked_digits run.all).append (.mark (by decide) (marked_digits more))
  | fractional fraction => exact .mark (by decide) (marked_digits fraction.all)

theorem Power.marked {text : Text} {power : ℤ} (raised : Power text power) : Marked text := by
  cases raised with
  | absent => exact List.forall_mem_nil _
  | given isMark signed run =>
      refine .mark ?_ (signed.marked.append (marked_digits run.all))
      rcases isMark with rfl | rfl <;> decide

/-- Every character of a numeral is a digit or a mark. -/
theorem Writes.marked {text : Text} {decimal : Decimal} (writes : Writes text decimal) :
    Marked text := by
  cases writes with
  | intro signed pointed raised => exact signed.marked.append (pointed.marked.append raised.marked)

/-- A numeral has characters. -/
theorem Writes.ne_nil {text : Text} {decimal : Decimal} (writes : Writes text decimal) :
    text ≠ [] := by
  cases writes with
  | intro signed pointed raised =>
      intro nothing
      obtain ⟨_, nothing⟩ := List.append_eq_nil_iff.mp nothing
      obtain ⟨nothing, _⟩ := List.append_eq_nil_iff.mp nothing
      cases pointed with
      | whole digits => exact digits.ne_nil nothing
      | pointed digits _ => exact digits.ne_nil (List.append_eq_nil_iff.mp nothing).1
      | fractional => cases nothing

/-! ## Reading the parts -/

/-- Digits read from the left are worth what the positional system says. -/
theorem digitsValue_eq_worth (run : Text) : digitsValue run = worth run := by
  induction run using List.reverseRecOn with
  | nil => rfl
  | append_singleton run c ih =>
      have step : digitsValue (run ++ [c]) =
          10 * digitsValue run + (Text.digitValue? c).getD 0 := by
        rw [digitsValue, List.foldl_append]
        rfl
      have positional : worth (run ++ [c]) = (Text.digitValue? c).getD 0 + 10 * worth run := by
        rw [worth, List.reverse_append, List.reverse_singleton, List.singleton_append,
          List.map_cons, Nat.ofDigits_cons]
        rfl
      rw [step, positional, ih, Nat.add_comm]

/-- A sign is read where none follows it. -/
theorem readSign_append {sign rest : Text} {negative : Bool} (signed : Sign sign negative)
    (stops : Text.Stops (· ∈ ['+', '-']) rest) : readSign (sign ++ rest) = (negative, rest) := by
  cases signed with
  | absent =>
      rw [List.nil_append]
      unfold readSign
      split
      · have other := stops '-' rfl
        simp at other
      · have other := stops '+' rfl
        simp at other
      · rfl
  | plus => rfl
  | minus => rfl

theorem sign_of_readSign (text : Text) :
    ∃ sign, Sign sign (readSign text).1 ∧ text = sign ++ (readSign text).2 := by
  unfold readSign
  split
  · exact ⟨['-'], .minus, rfl⟩
  · exact ⟨['+'], .plus, rfl⟩
  · exact ⟨[], .absent, rfl⟩

/-- Digits stop where a text starts with no digit, and no digit is a sign. -/
theorem Digits.stops_signs {run rest : Text} (digits : Digits run) :
    Text.Stops (· ∈ ['+', '-']) (run ++ rest) := by
  intro c first
  obtain ⟨d, later, rfl⟩ := List.exists_cons_of_ne_nil digits.ne_nil
  obtain rfl := Option.some.inj first
  have digit := digits.all d List.mem_cons_self
  refine decide_eq_false fun sign => ?_
  have mark : d ∈ marks := List.mem_append_left ['.', 'e', 'E'] sign
  rw [isDigit_of_mem_marks mark] at digit
  cases digit

theorem power_of_power? {text : Text} {power : ℤ} (read : power? text = some power) :
    Power text power := by
  cases text with
  | nil =>
      obtain rfl := Option.some.inj read
      exact .absent
  | cons mark rest =>
      simp only [power?] at read
      split at read
      · next isMark =>
          obtain ⟨sign, signed, divided⟩ := sign_of_readSign rest
          generalize readSign rest = found at signed divided read
          obtain ⟨negative, run⟩ := found
          simp only at signed divided read
          split at read
          · cases read
          · next isRun =>
              obtain rfl := Option.some.inj read
              rw [divided, digitsValue_eq_worth]
              simp only [Bool.or_eq_true, not_or, List.isEmpty_iff, Bool.not_eq_true',
                Bool.not_eq_false, List.all_eq_true] at isRun
              exact .given isMark signed ⟨isRun.1, isRun.2⟩
      · cases read

theorem power?_of_power {text : Text} {power : ℤ} (raised : Power text power) :
    power? text = some power := by
  cases raised with
  | absent => rfl
  | @given mark sign run negative isMark signed digits =>
      have read : readSign (sign ++ run) = (negative, run) := by
        have stops : Text.Stops (· ∈ ['+', '-']) (run ++ []) := digits.stops_signs
        rw [List.append_nil] at stops
        exact readSign_append signed stops
      have isRun : (run.isEmpty || !run.all Text.isDigit) = false := by
        simp [digits.ne_nil, List.all_eq_true.mpr digits.all]
      rw [power?, if_pos isMark, read]
      simp only [isRun, digitsValue_eq_worth]
      rfl

/-- A power starts with no digit and no point. -/
theorem Power.stops {text : Text} {power : ℤ} (raised : Power text power) :
    Text.Stops (fun c => Text.isDigit c || c == '.') text := by
  cases raised with
  | absent => exact Text.stops_nil _
  | given isMark =>
      refine Text.stops_cons ?_ _
      rcases isMark with rfl | rfl <;> decide

theorem readFraction_of_stops {text : Text} (stops : Text.Stops (· == '.') text) :
    readFraction text = ([], text) := by
  unfold readFraction
  split
  · cases stops '.' rfl
  · rfl

/-! ## Reading a numeral -/

/-- What is read as a decimal is written by the grammar. -/
theorem writes_of_decimal? {text : Text} {decimal : Decimal} (read : decimal? text = some decimal) :
    Writes text decimal := by
  obtain ⟨sign, signed, divided⟩ := sign_of_readSign text
  unfold decimal? at read
  generalize readSign text = found at signed divided read
  obtain ⟨negative, unsigned⟩ := found
  have run : unsigned = digitRun unsigned ++ afterDigits unsigned :=
    List.takeWhile_append_dropWhile.symm
  have isRun : ∀ c ∈ digitRun unsigned, Text.isDigit c = true := Text.all_takeWhile _ _
  simp only at signed divided read
  generalize digitRun unsigned = whole at run isRun read
  generalize afterDigits unsigned = later at run read
  rw [divided, run]
  unfold readFraction at read
  split at read
  · next rest =>
      have divided : rest = digitRun rest ++ afterDigits rest :=
        List.takeWhile_append_dropWhile.symm
      have isFraction : ∀ c ∈ digitRun rest, Text.isDigit c = true := Text.all_takeWhile _ _
      generalize digitRun rest = fraction at divided isFraction read
      generalize afterDigits rest = last at divided read
      simp only at read
      split at read
      · cases read
      · next digits =>
          obtain ⟨power, raised, rfl⟩ := Option.map_eq_some_iff.mp read
          simp only [Bool.and_eq_true, List.isEmpty_iff, not_and] at digits
          have parts : whole ++ '.' :: rest = (whole ++ '.' :: fraction) ++ last := by
            simp [divided]
          rw [parts, digitsValue_eq_worth]
          refine .intro signed ?_ (power_of_power? raised)
          by_cases none : whole = []
          · rw [none]
            exact .fractional ⟨digits none, isFraction⟩
          · exact .pointed ⟨none, isRun⟩ isFraction
  · simp only at read
    split at read
    · cases read
    · next digits =>
        obtain ⟨power, raised, rfl⟩ := Option.map_eq_some_iff.mp read
        simp only [List.isEmpty_nil, Bool.and_true, List.isEmpty_iff] at digits
        rw [List.append_nil, digitsValue_eq_worth]
        exact .intro signed (.whole ⟨digits, isRun⟩) (power_of_power? raised)

/-- What the grammar writes is read as the decimal. -/
theorem decimal?_of_writes {text : Text} {decimal : Decimal} (writes : Writes text decimal) :
    decimal? text = some decimal := by
  cases writes with
  | @intro _ _ exponent digits _ _ _ signed pointed raised =>
      have noDigit : Text.Stops Text.isDigit exponent := fun c first =>
        ((Bool.or_eq_false_iff).mp (raised.stops c first)).1
      have noPoint : Text.Stops (· == '.') exponent := fun c first =>
        ((Bool.or_eq_false_iff).mp (raised.stops c first)).2
      have point : ∀ rest, Text.Stops Text.isDigit ('.' :: rest) := fun rest =>
        Text.stops_cons (by decide) rest
      unfold decimal?
      cases pointed with
      | whole run =>
          rw [readSign_append signed run.stops_signs]
          simp only [digitRun, afterDigits, Text.takeWhile_append run.all noDigit,
            Text.dropWhile_append run.all noDigit, readFraction_of_stops noPoint]
          simp [run.ne_nil, power?_of_power raised, digitsValue_eq_worth]
      | pointed run more =>
          rw [List.append_assoc, List.cons_append, readSign_append signed run.stops_signs]
          simp only [digitRun, afterDigits, Text.takeWhile_append run.all (point _),
            Text.dropWhile_append run.all (point _), readFraction,
            Text.takeWhile_append more noDigit, Text.dropWhile_append more noDigit]
          simp [run.ne_nil, power?_of_power raised, digitsValue_eq_worth]
      | fractional fraction =>
          have noSign : Text.Stops (· ∈ ['+', '-']) ('.' :: (digits ++ exponent)) :=
            Text.stops_cons (by decide) _
          rw [List.cons_append, readSign_append signed noSign]
          simp only [digitRun, afterDigits, Text.takeWhile_of_stops (point _),
            Text.dropWhile_of_stops (point _), readFraction,
            Text.takeWhile_append fraction.all noDigit, Text.dropWhile_append fraction.all noDigit]
          simp [fraction.ne_nil, power?_of_power raised, digitsValue_eq_worth]

/-- **A text is read as a decimal exactly if the grammar writes the decimal so.** -/
theorem decimal?_eq_some_iff (text : Text) (decimal : Decimal) :
    decimal? text = some decimal ↔ Writes text decimal :=
  ⟨writes_of_decimal?, decimal?_of_writes⟩

/-- **A text is read as a double exactly if it writes a decimal and the double is the nearest one
to it**, which has to be finite. -/
theorem double?_eq_some_iff (text : Text) (number : Double) :
    double? text = some number ↔ ∃ decimal magnitude, Writes text decimal ∧
      Magnitude.IsNearest magnitude decimal.count ∧
        number = .finite decimal.negative magnitude := by
  unfold double?
  rw [Option.filter_eq_some_iff]
  constructor
  · rintro ⟨read, isFinite⟩
    obtain ⟨decimal, found, rfl⟩ := Option.map_eq_some_iff.mp read
    have writes := writes_of_decimal? found
    cases rounded : Double.ofDecimal decimal with
    | nan =>
        rw [rounded] at isFinite
        cases isFinite
    | infinite =>
        rw [rounded] at isFinite
        cases isFinite
    | finite negative magnitude =>
        obtain ⟨rfl, nearest⟩ := (Double.ofDecimal_eq_finite_iff _ _ _).mp rounded
        exact ⟨decimal, magnitude, writes, nearest, rfl⟩
  · rintro ⟨decimal, magnitude, writes, nearest, rfl⟩
    have rounded := (Double.ofDecimal_eq_finite_iff _ _ _).mpr ⟨rfl, nearest⟩
    exact ⟨Option.map_eq_some_iff.mpr ⟨decimal, decimal?_of_writes writes, rounded⟩, rfl⟩

/-! ## Decimal texts -/

/-- A character of a decimal text is worth its distance from zero. -/
theorem digitValue?_of_mem_ofNat {n : ℕ} {c : Char} (member : c ∈ Text.ofNat n) :
    Text.digitValue? c = some (c.toNat - 48) := by
  have plain := Nat.isDigit_of_mem_toDigits (by decide) (by decide) member
  have within : 48 ≤ c.toNat ∧ c.toNat < 48 + 10 := by
    simp only [Char.isDigit, Bool.and_eq_true, decide_eq_true_eq] at plain
    exact ⟨plain.1, Nat.lt_succ_of_le plain.2⟩
  simp [Text.digitValue?, Text.zeroDigits, within]

theorem digits_ofNat (n : ℕ) : Digits (Text.ofNat n) where
  ne_nil := Nat.toDigits_ne_nil
  all := fun c member => by rw [Text.isDigit, digitValue?_of_mem_ofNat member]; rfl

/-- The decimal text of a number is worth the number. -/
theorem worth_ofNat (n : ℕ) : worth (Text.ofNat n) = n := by
  have same : ∀ (run : Text) (value : ℕ), (∀ c ∈ run, Text.digitValue? c = some (c.toNat - 48)) →
      run.foldl (fun value c => 10 * value + (Text.digitValue? c).getD 0) value =
        Nat.ofDigitChars 10 run value := by
    intro run
    induction run with
    | nil => exact fun _ _ => rfl
    | cons c run ih =>
        intro value plain
        obtain ⟨here, later⟩ := List.forall_mem_cons.mp plain
        rw [List.foldl_cons, ih _ later, here]
        rfl
  rw [← digitsValue_eq_worth, digitsValue, same _ _ fun c => digitValue?_of_mem_ofNat]
  exact Nat.ofDigitChars_ten_toDigits

/-- Digits that go on are worth a power of ten more. -/
theorem worth_append (run more : Text) :
    worth (run ++ more) = worth run * 10 ^ more.length + worth more := by
  simp only [worth, List.reverse_append, List.map_append, Nat.ofDigits_append, List.length_map,
    List.length_reverse]
  ring

theorem worth_zeros (n : ℕ) : worth (List.replicate n '0') = 0 := by
  have zero : (Text.digitValue? '0').getD 0 = 0 := by decide
  simp [worth, zero]

/-- Zeros in front are worth nothing. -/
theorem worth_zeros_append (n : ℕ) (run : Text) :
    worth (List.replicate n '0' ++ run) = worth run := by
  rw [worth_append, worth_zeros, Nat.zero_mul, Nat.zero_add]

/-- Zeros at the end shift the digits. -/
theorem worth_append_zeros (run : Text) (n : ℕ) :
    worth (run ++ List.replicate n '0') = worth run * 10 ^ n := by
  rw [worth_append, worth_zeros, List.length_replicate, Nat.add_zero]

theorem isDigit_zeros (n : ℕ) : ∀ c ∈ List.replicate n '0', Text.isDigit c = true := by
  intro c member
  rw [List.eq_of_mem_replicate member]
  decide

theorem digits_zero : Digits ['0'] := digits_ofNat 0

theorem digits_append_zeros {run : Text} (digits : Digits run) (n : ℕ) :
    Digits (run ++ List.replicate n '0') where
  ne_nil := by simp [digits.ne_nil]
  all := List.forall_mem_append.mpr ⟨digits.all, isDigit_zeros n⟩

theorem digits_zeros_append (n : ℕ) {run : Text} (digits : Digits run) :
    Digits (List.replicate n '0' ++ run) where
  ne_nil := by simp [digits.ne_nil]
  all := List.forall_mem_append.mpr ⟨isDigit_zeros n, digits.all⟩

end Numeral
end TypedQuery
