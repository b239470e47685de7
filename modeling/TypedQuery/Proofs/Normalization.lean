import TypedQuery.Proofs.NumberLiterals
import TypedQuery.Proofs.Typing

/-!
# The normal form of a literal

A value may be written in several ways: with either quote, with escapes that are not needed, with
blanks between items, and a number with a sign, a point or a power of ten that say nothing. The
literal of the value that is read is one of these ways, and it is the normal form of all of them:
read and written once more it is the same text (`Literal.normalizes_of_parse`).

What is read can always be written again, because nothing is read that a literal cannot express
(`Literal.WritesItem.clean`): no line end, no number sign in a raw piece, and no number that is not
finite. The value that is read again is equal to the first one. It need not be the same, since zero
loses its sign, but equal values have one literal (`Value.literal_eq_of_agrees`).
-/

set_option autoImplicit false

namespace TypedQuery

open Literal

/-! ## Equal values have one literal -/

/-- Equal numbers have one literal: zero is written without a sign. -/
theorem Double.literal_eq_of_agrees {number number' : Double}
    (agree : number.agrees number' = true) : number.literal = number'.literal := by
  cases number with
  | nan => cases agree
  | infinite negative =>
      cases number' with
      | nan | finite => cases agree
      | infinite negative' => rw [eq_of_beq agree]
  | finite negative magnitude =>
      cases number' with
      | nan | infinite => cases agree
      | finite negative' magnitude' =>
          simp only [Double.agrees, Bool.and_eq_true, Bool.or_eq_true, beq_iff_eq] at agree
          obtain ⟨rfl, rfl | rfl⟩ := agree
          · rfl
          · have none : Magnitude.zero.units = 0 := (Magnitude.units_eq_zero_iff _).mpr rfl
            simp [Double.literal, Magnitude.whole?, none]

theorem Scalar.literal_eq_of_agrees {item item' : Scalar} (agree : item.agrees item' = true) :
    item.literal = item'.literal := by
  by_cases isNum : item.base = .num
  · cases item with
    | str | raw => cases isNum
    | num number =>
        cases item' with
        | str | raw => cases agree
        | num number' => exact Double.literal_eq_of_agrees agree
  · rw [Scalar.eq_of_agrees agree isNum]

theorem Scalar.map_literal_eq_of_agrees {items items' : List Scalar}
    (agrees : List.Forall₂ (fun item item' => item.agrees item' = true) items items') :
    items.map Scalar.literal = items'.map Scalar.literal := by
  induction agrees with
  | nil => rfl
  | cons first _ ih => rw [List.map_cons, List.map_cons, Scalar.literal_eq_of_agrees first, ih]

/-- **Equal values have one literal.** -/
theorem Value.literal_eq_of_agrees {value value' : Value} (agree : value.agrees value' = true) :
    value.literal = value'.literal := by
  cases value with
  | scalar item =>
      cases value' with
      | array => cases agree
      | scalar item' => exact Scalar.literal_eq_of_agrees agree
  | array base items =>
      cases value' with
      | scalar => cases agree
      | array base' items' =>
          obtain ⟨_, agrees⟩ := Value.agrees_array_iff.mp agree
          rw [Value.literal, Value.literal, Scalar.map_literal_eq_of_agrees agrees]

/-! ## What is read can be written -/

/-- An item whose content a literal can express: a text or a raw piece has no line end, a raw piece
has no number sign, and a number is finite. -/
def Scalar.Clean : Scalar → Prop
  | .str text => text.OneLine
  | .num number => number.isFinite = true
  | .raw text => text.OneLine ∧ '#' ∉ text

/-- A value has clean items only. -/
def Value.Clean : Value → Prop
  | .scalar item => item.Clean
  | .array _ items => ∀ item ∈ items, item.Clean

/-- An item that has a literal is clean. -/
theorem Literal.WritesItem.clean {text : Text} {item : Scalar} (writes : WritesItem text item) :
    item.Clean := by
  cases writes with
  | str _ inside => exact inside.oneLine.2
  | raw inside => exact ⟨fun c member => (inside c member).2, fun sign => (inside _ sign).1 rfl⟩
  | num => rfl

/-- A value that has a literal is clean. -/
theorem Literal.Writes.clean {type : ParamType} {text : Text} {value : Value}
    (writes : Writes type text value) : value.Clean := by
  cases writes with
  | scalar writes => exact writes.clean
  | empty => exact List.forall_mem_nil _
  | items _ writes =>
      intro item member
      obtain ⟨_, _, written⟩ := writes.exists_item item member
      exact written.clean

theorem Scalar.Clean.representable {item : Scalar} (clean : item.Clean) : item.Representable := by
  cases item with
  | str text => exact clean
  | raw text =>
      obtain ⟨oneLine, noSign⟩ := clean
      exact fun c member => ⟨fun sign => noSign (sign ▸ member), oneLine c member⟩
  | num number =>
      cases number with
      | nan | infinite => cases clean
      | finite negative magnitude =>
          have kept := Double.keptAs_of_double? (Double.double?_literal negative magnitude)
          exact ⟨_, kept.parsed, kept.equal⟩

/-- A clean value whose items are of its base type survives its literal. -/
theorem Value.Clean.survives {value : Value} (clean : value.Clean) {type : ParamType}
    (fits : value.Fits type) : value.Survives := by
  refine Value.survives_of_representable ?_
  cases value with
  | scalar item => exact Scalar.Clean.representable clean
  | array base items =>
      exact fun item member => ⟨fits.2 item member, (clean item member).representable⟩

/-! ## Normal forms -/

/-- A value that is read as a literal of a type is of the type throughout and clean, and its own
literal is read as an equal value with just that literal again. -/
structure Literal.Normalizes (type : ParamType) (value : Value) : Prop where
  typed : value.type = type
  fits : value.Fits type
  clean : value.Clean
  stable : ∃ again, parse type value.literal = .ok again ∧ again.agrees value = true ∧
    again.literal = value.literal

/-- **Writing a value that was read gives a normal form**, which is not changed by reading and
writing it again. -/
theorem Literal.normalizes_of_parse {type : ParamType} {text : Text} {value : Value}
    (parsed : parse type text = .ok value) : Normalizes type value := by
  obtain ⟨_, _, _, _, writes, _, _⟩ := writes_of_parse parsed
  have typed := Value.type_of_fits writes.fits
  obtain ⟨again, parsed', agree⟩ := writes.clean.survives writes.fits
  rw [typed] at parsed'
  exact ⟨typed, writes.fits, writes.clean, again, parsed', agree, Value.literal_eq_of_agrees agree⟩

/-- Signs, points, powers, a digit of another script and blanks that say nothing, and a number that
is too large to be written as an integer. -/
theorem Literal.normalizes_of_parse_numbers :
    let text := "\t[ +2.50e1 ,-0,.50, ٣,1e16 ] ".toList
    ∃ value, parse (.array .num) text = .ok value ∧
      value.literal = "[25, 0, 0.5, 3, 1e+16]".toList ∧ Normalizes (.array .num) value := by
  intro text
  have printed : (parse (.array .num) text).map Value.literal =
      .ok "[25, 0, 0.5, 3, 1e+16]".toList := by decide +kernel
  obtain ⟨value, parsed, literal⟩ := map_eq_ok_iff.mp printed
  exact ⟨value, parsed, literal, normalizes_of_parse parsed⟩

end TypedQuery
