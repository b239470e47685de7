import TypedQuery.Proofs.Literals

/-!
# Literals inside a text

A literal that is read from an offset of a text ends at the offset after it. Where it starts and
ends is said by the grammar alone: the text is something before the literal, the literal, and
something after it that does not continue a number (`Literal.readAt_eq_ok_iff`). So what is read
depends on the literal and on nothing else. It is a literal by itself, and between any two other
texts it is read again, at the place where it then stands; only a number must be followed by a
delimiter or by nothing (`Literal.standsAlone_of_readAt`).

A literal that cannot be read is at fault somewhere in the input from its start on
(`Literal.suffix_of_fault`). So the offset of a fault lies between the start of the literal and the
end of the text, and it is the same whether it is counted from the front of the text or from the
start of the literal (`Literal.Fault.locate_of_suffix`).
-/

set_option autoImplicit false

namespace TypedQuery

namespace Literal

/-! ## Where a literal ends -/

/-- A literal is no empty text. -/
theorem Writes.ne_nil {type : ParamType} {text : Text} {value : Value}
    (writes : Writes type text value) : text ≠ [] := by
  cases writes with
  | scalar writes => cases writes.opens with | intro => exact List.cons_ne_nil _ _
  | empty => exact List.cons_ne_nil _ _
  | items => exact List.cons_ne_nil _ _

/-- A number is read as far as it goes. -/
theorem stops_of_read_num {input rest : Text} {value : Value}
    (taken : read (.scalar .num) input = .ok (value, rest)) : Text.Stops isNumberChar rest := by
  obtain ⟨⟨item, last⟩, first, same⟩ := map_eq_ok_iff.mp taken
  obtain ⟨_, rfl⟩ := Prod.mk.inj same
  simp only [readScalar, readNum] at first
  split at first
  · split at first
    · obtain ⟨_, rfl⟩ := Prod.mk.inj (Except.ok.inj first)
      exact Text.stops_dropWhile isNumberChar input
    · cases first
  · cases first

/-- **A literal is read at an offset exactly where one stands** and no number goes on. -/
theorem readAt_eq_ok_iff {type : ParamType} {text : Text} {start stop : Nat} {value : Value} :
    readAt type text start = .ok (value, stop) ↔ ∃ before literal after,
      text = before ++ (literal ++ after) ∧ start = before.length ∧
      stop = before.length + literal.length ∧ Writes type literal value ∧
      (type = .scalar .num → Text.Stops isNumberChar after) := by
  constructor
  · intro taken
    unfold readAt at taken
    split at taken
    · next found rest first =>
        obtain ⟨rfl, rfl⟩ := Prod.mk.inj (Except.ok.inj taken)
        obtain ⟨literal, writes, inside⟩ := writes_of_read first
        -- past the end of the text there is no literal
        have within : start ≤ text.length := by
          by_contra beyond
          rw [List.drop_eq_nil_of_le (by omega)] at inside
          exact writes.ne_nil (List.append_eq_nil_iff.mp inside.symm).1
        have length : (text.take start).length = start := by
          rw [List.length_take, Nat.min_eq_left within]
        refine ⟨text.take start, literal, rest, ?_, length.symm, ?_, writes, ?_⟩
        · rw [← inside, List.take_append_drop]
        · rw [length, inside, List.length_append, Nat.add_sub_cancel]
        · rintro rfl
          exact stops_of_read_num first
    · cases taken
  · rintro ⟨before, literal, after, rfl, rfl, rfl, writes, ends⟩
    have first := read_of_writes writes ends
    have consumed : (literal ++ after).length - after.length = literal.length := by
      rw [List.length_append, Nat.add_sub_cancel]
    rw [readAt, List.drop_left, first]
    simp only [consumed]

/-- What may follow a number: nothing, or a text that starts with white space or a delimiter. -/
def EndsNumber (rest : Text) : Prop :=
  ∀ c, rest.head? = some c →
    Text.isSpace c = true ∨ c ∈ [',', '[', ']', '/', '\'', '"', '#']

theorem endsNumber_iff {rest : Text} : EndsNumber rest ↔ Text.Stops isNumberChar rest := by
  have delimits (c : Char) : isNumberChar c = false ↔
      Text.isSpace c = true ∨ c ∈ [',', '[', ']', '/', '\'', '"', '#'] := by
    simp only [isNumberChar, isQuote, Bool.not_eq_false', Bool.or_eq_true, beq_iff_eq,
      List.mem_cons, List.not_mem_nil, or_false, or_assoc]
  exact forall₂_congr fun c _ => (delimits c).symm

/-- The literal between two offsets of a text is a literal by itself, and is read between any two
other texts just as it is in its own, if it is not a number that goes on. -/
structure StandsAlone (type : ParamType) (value : Value) (text : Text) (start stop : Nat) :
    Prop where
  forward : start < stop
  within : stop ≤ text.length
  alone : parse type (Text.slice text start stop) = .ok value
  anywhere : ∀ before after : Text,
    readAt type (before ++ (Text.slice text start stop ++ after)) before.length =
        .ok (value, before.length + (stop - start)) ↔
      (type = .scalar .num → EndsNumber after)

/-- **What is read as a literal depends on the literal alone**, and on what follows it only where a
number might go on. -/
theorem standsAlone_of_readAt {type : ParamType} {text : Text} {start stop : Nat} {value : Value}
    (taken : readAt type text start = .ok (value, stop)) :
    StandsAlone type value text start stop := by
  obtain ⟨before, literal, after, rfl, rfl, rfl, writes, _⟩ := readAt_eq_ok_iff.mp taken
  have some : 0 < literal.length := List.length_pos_iff.mpr writes.ne_nil
  have length : before.length + literal.length - before.length = literal.length :=
    Nat.add_sub_cancel_left _ _
  refine ⟨by omega, by simp only [List.length_append]; omega, ?_, fun before' after' => ?_⟩
  · have parsed := parse_of_writes Text.blanks_nil writes Text.blanks_nil
    rw [List.nil_append, List.append_nil] at parsed
    rw [Text.slice_append, parsed]
  · rw [Text.slice_append, length, readAt_eq_ok_iff, endsNumber_iff]
    constructor
    · rintro ⟨front, found, rest, whole, start, stop, _, ends⟩
      -- the literal that is read there is as long as this one, so the same text follows it
      obtain ⟨_, inside⟩ := List.append_inj whole start
      have same : found.length = literal.length := by omega
      rw [(List.append_inj inside same.symm).2]
      exact ends
    · intro ends
      exact ⟨before', literal, after', rfl, rfl, rfl, writes, ends⟩

/-- A number in front of a slash, and an array with the brackets and quotes of its items. -/
theorem standsAlone_of_readAt_number :
    let number := "= -2.50e1// below".toList
    let array := "= ['a]', \"'\" , '\\'']# b".toList
    ∃ value, readAt (.scalar .num) number 2 = .ok (value, 9) ∧
      StandsAlone (.scalar .num) value number 2 9 ∧
      readAt (.array .str) array 2 =
        .ok (.array .str [.str "a]".toList, .str ['\''], .str ['\'']], 20) ∧
      StandsAlone (.array .str) (.array .str [.str "a]".toList, .str ['\''], .str ['\'']])
        array 2 20 := by
  intro number array
  have ends : (readAt (.scalar .num) number 2).map Prod.snd = .ok 9 := by decide +kernel
  obtain ⟨⟨value, stop⟩, taken, rfl⟩ := map_eq_ok_iff.mp ends
  have items : readAt (.array .str) array 2 =
      .ok (.array .str [.str "a]".toList, .str ['\''], .str ['\'']], 20) := by decide +kernel
  exact ⟨value, taken, standsAlone_of_readAt taken, items, standsAlone_of_readAt items⟩

/-! ## Where a fault lies -/

theorem rest_refusal (expected : ParamType) (input : Text) :
    (refusal expected input).rest = input := by
  unfold refusal
  split <;> rfl

/-- An item is at fault as a whole. -/
theorem rest_of_readScalar {base : BaseType} {input : Text} {fault : Fault}
    (refused : readScalar base input = .error fault) : fault.rest = input := by
  cases base with
  | str =>
      cases input with
      | nil =>
          obtain rfl := Except.error.inj refused
          exact rest_refusal _ _
      | cons c rest =>
          simp only [readScalar, readStr] at refused
          split at refused
          · split at refused
            · cases refused
            · obtain rfl := Except.error.inj refused
              rfl
          · obtain rfl := Except.error.inj refused
            exact rest_refusal _ _
  | num =>
      simp only [readScalar, readNum] at refused
      split at refused
      · split at refused
        · cases refused
        · obtain rfl := Except.error.inj refused
          rfl
      · obtain rfl := Except.error.inj refused
        exact rest_refusal _ _
  | raw =>
      cases input with
      | nil =>
          obtain rfl := Except.error.inj refused
          exact rest_refusal _ _
      | cons c rest =>
          simp only [readScalar, readRaw] at refused
          split at refused
          · split at refused
            · cases refused
            · obtain rfl := Except.error.inj refused
              rfl
          · obtain rfl := Except.error.inj refused
            exact rest_refusal _ _

/-- What comes next after an item and blanks is an end of the input. -/
theorem suffix_of_next {base : BaseType} {input after : Text} {item : Scalar}
    (first : readScalar base input = .ok (item, after)) : Text.dropBlanks after <:+ input :=
  (List.dropWhile_suffix _).trans (suffix_of_readScalar base input item after first)

/-- Items are at fault where they cannot go on, or at the bracket that is never closed. -/
theorem suffix_of_readItems_fault {base : BaseType} {opening input : Text} {fault : Fault}
    (inside : input <:+ opening) (refused : readItems base opening input = .error fault) :
    fault.rest <:+ opening := by
  fun_induction readItems base opening input generalizing fault with
  | case1 | case3 | case4 =>
      obtain rfl := Except.error.inj refused
      exact List.suffix_rfl
  | case2 input _ other first =>
      obtain rfl := Except.error.inj refused
      rw [rest_of_readScalar first]
      exact inside
  | case5 => cases refused
  | case6 input _ item after first tail _ next =>
      obtain rfl := Except.error.inj refused
      have comma : ',' :: tail <:+ opening := next ▸ (suffix_of_next first).trans inside
      exact (List.dropWhile_suffix _).trans ((List.suffix_cons _ _).trans comma)
  | case7 input _ item after first tail _ next _ _ ih =>
      have comma : ',' :: tail <:+ opening := next ▸ (suffix_of_next first).trans inside
      exact ih ((List.dropWhile_suffix _).trans ((List.suffix_cons _ _).trans comma))
        (map_eq_error_iff.mp refused)
  | case8 input _ item after first c tail next =>
      obtain rfl := Except.error.inj refused
      exact next ▸ (suffix_of_next first).trans inside

/-- **A literal is at fault at an end of the input.** -/
theorem suffix_of_fault {type : ParamType} {input : Text} {fault : Fault}
    (refused : read type input = .error fault) : fault.rest <:+ input := by
  cases type with
  | scalar base => exact (rest_of_readScalar (map_eq_error_iff.mp refused)).symm ▸ List.suffix_rfl
  | array base =>
      rw [read] at refused
      unfold readArray at refused
      split at refused
      · next inner =>
          split at refused
          · cases refused
          · have inside : Text.dropBlanks inner <:+ '[' :: inner :=
              (List.dropWhile_suffix _).trans (List.suffix_cons _ _)
            exact suffix_of_readItems_fault inside (map_eq_error_iff.mp refused)
      · obtain rfl := Except.error.inj refused
        rw [rest_refusal]

/-- A fault lies between the start of its literal and the end of the text, and its offset is the
same, counted from the front of the text or from the start of the literal. -/
theorem Fault.locate_of_suffix {fault : Fault} {input : Text} (before : Text)
    (within : fault.rest <:+ input) :
    fault.locate (before ++ input) before.length = fault.locate (before ++ input) 0 ∧
      before.length ≤ (fault.locate (before ++ input) 0).position ∧
      (fault.locate (before ++ input) 0).position ≤ (before ++ input).length := by
  have shorter := within.length_le
  have position : 0 + (before.length + input.length - fault.rest.length) =
      before.length + (input.length - fault.rest.length) := by omega
  simp only [locate, List.drop_zero, List.drop_left, List.length_append, position, true_and]
  omega

/-- A literal that cannot be read at an offset is at fault there. -/
theorem readAt_eq_error_iff {type : ParamType} {before input : Text} {error : LiteralError} :
    readAt type (before ++ input) before.length = .error error ↔
      ∃ fault, read type input = .error fault ∧ error = fault.locate (before ++ input) 0 := by
  rw [readAt, List.drop_left]
  cases taken : read type input with
  | ok found => simp
  | error fault =>
      simp only [(Fault.locate_of_suffix before (suffix_of_fault taken)).1, Except.error.injEq,
        exists_eq_left', eq_comm]

end Literal
end TypedQuery
