import TypedQuery.Proofs.NumberLiterals

/-!
# Values that are read back as something else

Nothing checks a value before its literal is written. Where the literal cannot be read, nothing is
lost. Where it can be read, it has the value again, with one exception: a raw piece has no escapes,
so a number sign in it closes the piece too early. In an array the reader may go on from there, if
what follows the number sign looks like what stands between two pieces (`Literal.Separating`).

Each item of an array that is read is compared with the item that was written there. Both start
with the same character, so they are of one base type (`Literal.base_eq_of_append`), and the item
that was written is cut out as a whole, or it is a raw piece that is cut at its first number sign
(`Literal.WritesItem.cut`). After such a cut a comma has to follow and another number sign after it,
and what was written there is the same piece still, or its end. So a value that is read back is
read back as another one exactly if it is an array of raw pieces one of which separates pieces
itself (`Value.faithful_unless_splits`).
-/

set_option autoImplicit false

namespace TypedQuery

open Literal

/-! ## First characters of literals -/

namespace Literal

/-- The base type of the items that start with a character. -/
def opener (c : Char) : BaseType := if isQuote c then .str else if c = '#' then .raw else .num

theorem opener_of_isNumberChar {c : Char} (char : isNumberChar c = true) : opener c = .num := by
  simp only [isNumberChar, Bool.not_eq_true', Bool.or_eq_false_iff, beq_eq_false_iff_ne] at char
  simp [opener, char]

/-- The first character of an item tells its base type. -/
theorem WritesItem.exists_opener {text : Text} {item : Scalar} (writes : WritesItem text item) :
    ∃ c later, text = c :: later ∧ opener c = item.base := by
  cases writes with
  | str isQuote => exact ⟨_, _, rfl, by rcases isQuote with rfl | rfl <;> rfl⟩
  | raw => exact ⟨_, _, rfl, rfl⟩
  | num writes =>
      obtain ⟨c, later, rfl⟩ := List.exists_cons_of_ne_nil writes.ne_nil
      have char := isNumberChar_of_writes writes c List.mem_cons_self
      exact ⟨c, later, rfl, opener_of_isNumberChar char⟩

/-- The first character of the literal of an item tells its base type. -/
theorem exists_opener_literal (item : Scalar) :
    ∃ c later, item.literal = c :: later ∧ opener c = item.base := by
  cases item with
  | str text => exact ⟨_, _, rfl, rfl⟩
  | raw text => exact ⟨_, _, rfl, rfl⟩
  | num number =>
      obtain ⟨c, later, same⟩ := List.exists_cons_of_ne_nil number.literal_ne_nil
      refine ⟨c, later, same, opener_of_isNumberChar (number.undelimited_literal c ?_)⟩
      rw [same]
      exact List.mem_cons_self

/-! ## One item -/

/-- The escapes of a text up to a quote can be read as those of that text only. -/
theorem units_unique {units text text' rest rest' : Text} (inside : Units '\'' units text')
    (same : units ++ '\'' :: rest' = text.flatMap Scalar.escapeChar ++ '\'' :: rest) :
    text' = text ∧ rest' = rest := by
  induction text generalizing units text' with
  | nil =>
      cases inside with
      | done => exact ⟨rfl, (List.cons_eq_cons.mp same).2⟩
      | escaped => cases (List.cons_eq_cons.mp same).1
      | plain _ notQuote => exact absurd (List.cons_eq_cons.mp same).1 notQuote
  | cons c text ih =>
      rw [List.flatMap_cons, Scalar.escapeChar] at same
      split at same
      · cases inside with
        | done => cases (List.cons_eq_cons.mp same).1
        | escaped _ inside =>
            simp only [List.cons_append, List.nil_append, List.cons_eq_cons, true_and] at same
            obtain ⟨rfl, same⟩ := same
            obtain ⟨rfl, rfl⟩ := ih inside same
            exact ⟨rfl, rfl⟩
        | plain _ _ notEscape => exact absurd (List.cons_eq_cons.mp same).1 notEscape
      · next plain =>
          cases inside with
          | done => exact absurd (.inr (List.cons_eq_cons.mp same).1.symm) plain
          | escaped => exact absurd (.inl (List.cons_eq_cons.mp same).1.symm) plain
          | plain _ _ _ inside =>
              simp only [List.cons_append, List.nil_append, List.cons_eq_cons] at same
              obtain ⟨rfl, same⟩ := same
              obtain ⟨rfl, rfl⟩ := ih inside same
              exact ⟨rfl, rfl⟩

/-- A text up to a number sign that goes past a text without one goes on from there. -/
theorem exists_of_append_eq {front rest text more : Text} (none : '#' ∉ front)
    (same : front ++ rest = text ++ '#' :: more) :
    ∃ later, text = front ++ later ∧ rest = later ++ '#' :: more := by
  rcases List.append_eq_append_iff.mp same with ⟨later, whole, divided⟩ | ⟨later, whole, divided⟩
  · exact ⟨later, whole, divided⟩
  · cases later with
    | nil => exact ⟨[], by simpa using whole.symm, divided.symm⟩
    | cons c later =>
        obtain ⟨rfl, _⟩ := List.cons_eq_cons.mp divided
        exact absurd (whole ▸ List.mem_append_right _ List.mem_cons_self) none

/-- What is read where an item was written is an item of its base type. -/
theorem base_eq_of_append {text rest rest' : Text} {again item : Scalar}
    (writes : WritesItem text again) (same : text ++ rest = item.literal ++ rest') :
    again.base = item.base := by
  obtain ⟨c, later, rfl, base⟩ := writes.exists_opener
  obtain ⟨d, later', literal, base'⟩ := exists_opener_literal item
  rw [literal] at same
  obtain ⟨rfl, _⟩ := List.cons_eq_cons.mp same
  exact base.symm.trans base'

/-- **Where an item was written, it is read as a whole, or it is a raw piece that is cut at its
first number sign.** -/
theorem WritesItem.cut {text rest rest' : Text} {again item : Scalar}
    (writes : WritesItem text again) (stops : Text.Stops isNumberChar rest)
    (stops' : Text.Stops isNumberChar rest') (same : text ++ rest = item.literal ++ rest') :
    (again.agrees item = true ∧ rest = rest') ∨
      ∃ piece more, item = .raw (piece ++ '#' :: more) ∧ (∀ c ∈ piece, c ≠ '#') ∧
        rest = more ++ '#' :: rest' := by
  have based := base_eq_of_append writes same
  cases writes with
  | str isQuote inside =>
      cases item with
      | num | raw => cases based
      | str text =>
          simp only [Scalar.literal, List.cons_append, List.append_assoc, List.nil_append] at same
          obtain ⟨rfl, same⟩ := List.cons_eq_cons.mp same
          obtain ⟨rfl, rfl⟩ := units_unique inside same
          exact .inl ⟨beq_self_eq_true _, rfl⟩
  | raw inside =>
      cases item with
      | str | num => cases based
      | raw text =>
          simp only [Scalar.literal, List.cons_append, List.append_assoc, List.nil_append] at same
          obtain ⟨_, same⟩ := List.cons_eq_cons.mp same
          obtain ⟨later, rfl, divided⟩ :=
            exists_of_append_eq (fun member => (inside _ member).1 rfl) same
          cases later with
          | nil =>
              rw [List.append_nil]
              exact .inl ⟨beq_self_eq_true _, (List.cons_eq_cons.mp divided).2⟩
          | cons c more =>
              obtain ⟨rfl, left⟩ := List.cons_eq_cons.mp divided
              exact .inr ⟨_, more, rfl, fun c member => (inside c member).1, left⟩
  | num writes nearest =>
      cases item with
      | str | raw => cases based
      | num number =>
          obtain ⟨rfl, rfl⟩ := Text.run_unique (isNumberChar_of_writes writes)
            number.undelimited_literal stops stops' same
          refine .inl ⟨Double.agrees_of_double? ?_, rfl⟩
          exact (Numeral.double?_eq_some_iff _ _).mpr ⟨_, _, writes, nearest, rfl⟩

/-! ## Several items -/

/-- A text goes on after its first number sign as a list of raw pieces does after a piece: with a
comma, with blanks around it at most, and then with a number sign or not at all. -/
inductive Separating : Text → Prop where
  | intro {piece before after rest : Text} (first : ∀ c ∈ piece, c ≠ '#')
      (blank : Text.Blanks before) (blank' : Text.Blanks after)
      (next : ∀ c, rest.head? = some c → c = '#') :
      Separating (piece ++ '#' :: (before ++ ',' :: (after ++ rest)))

/-- No number sign is a blank. -/
theorem sign_not_mem_blanks {blanks : Text} (blank : Text.Blanks blanks) : '#' ∉ blanks :=
  fun member => by cases blank _ member

/-- Raw pieces start with a number sign. -/
theorem WritesItems.head?_raw {text : Text} {items : List Scalar}
    (writes : WritesItems .raw text items) : text.head? = some '#' := by
  have first {text : Text} {item : Scalar} (writes : WritesItem text item)
      (based : item.base = .raw) : text.head? = some '#' := by
    cases writes with
    | raw => rfl
    | str | num => cases based
  cases writes with
  | last based writes => exact first writes based
  | cons based writes => rw [List.head?_append, first writes based]; rfl

/-- A raw piece that is cut where a comma and another raw piece follow separates pieces. -/
theorem separating_of_cut {piece more before after later rest rest' : Text} {items : List Scalar}
    (first : ∀ c ∈ piece, c ≠ '#') (blank : Text.Blanks before) (blank' : Text.Blanks after)
    (writes : WritesItems .raw later items)
    (same : before ++ ',' :: (after ++ (later ++ rest)) = more ++ '#' :: rest') :
    Separating (piece ++ '#' :: more) := by
  have none : '#' ∉ before ++ [','] := by
    simpa using sign_not_mem_blanks blank
  have parts : (before ++ [',']) ++ (after ++ (later ++ rest)) = more ++ '#' :: rest' := by
    simpa using same
  obtain ⟨between, rfl, divided⟩ := exists_of_append_eq none parts
  obtain ⟨last, rfl, divided'⟩ := exists_of_append_eq (sign_not_mem_blanks blank') divided
  rw [List.append_assoc, List.singleton_append]
  refine .intro first blank blank' fun c start => ?_
  have sign : (later ++ rest).head? = some '#' := by
    rw [List.head?_append, writes.head?_raw]
    rfl
  rw [divided', List.head?_append, start] at sign
  exact Option.some.inj sign

/-- What stands behind the literal of the first item of an array: the closing bracket, or a comma
and the literals of the other items. -/
inductive After : List Scalar → Text → Prop where
  | last : After [] [']']
  | next (item : Scalar) (more : List Scalar) : After (item :: more)
      (',' :: ([' '] ++ (Text.join [',', ' '] ((item :: more).map Scalar.literal) ++ [']'])))

/-- Neither a number nor blanks go on behind the literal of an item. -/
theorem After.stops {more : List Scalar} {rest : Text} (after : After more rest) :
    Text.Stops isNumberChar rest ∧ Text.Stops Text.isBlank rest := by
  cases after <;> exact ⟨Text.stops_cons rfl _, Text.stops_cons rfl _⟩

theorem exists_after (item : Scalar) (more : List Scalar) :
    ∃ rest, After more rest ∧
      Text.join [',', ' '] ((item :: more).map Scalar.literal) ++ [']'] = item.literal ++ rest := by
  cases more with
  | nil =>
      rw [List.map_singleton, Text.join_singleton]
      exact ⟨_, .last, rfl⟩
  | cons next more =>
      refine ⟨_, .next next more, ?_⟩
      rw [List.map_cons, List.map_cons, Text.join_cons_cons, List.append_assoc]
      rfl

/-- Items that are read from the literals of items, joined by commas, are equal to those, or one of
those is a raw piece that separates pieces. -/
theorem agree_or_separating {base : BaseType} {text : Text} {found : List Scalar}
    (writes : WritesItems base text found) {item : Scalar} {more : List Scalar}
    {blanks closing : Text} (blank : Text.Blanks blanks) (blank' : Text.Blanks closing)
    (same : text ++ (blanks ++ ']' :: closing) =
      Text.join [',', ' '] ((item :: more).map Scalar.literal) ++ [']']) :
    List.Forall₂ (fun again item => again.agrees item = true) found (item :: more) ∨
      base = .raw ∧ ∃ piece, .raw piece ∈ item :: more ∧ Separating piece := by
  -- on how the array was read; behind the first item it has to go on as it was written
  induction writes generalizing item more with
  | @last text again based writes =>
      obtain ⟨rest, after, written⟩ := exists_after item more
      obtain ⟨stops, stops'⟩ := after.stops
      have ends : Text.Stops isNumberChar (blanks ++ ']' :: closing) :=
        stops_isNumberChar blank (Text.stops_cons rfl closing)
      rcases writes.cut ends stops (same.trans written) with ⟨agree, left⟩ | ⟨_, _, _, _, left⟩
      · obtain ⟨_, tail⟩ := Text.run_unique blank Text.blanks_nil (Text.stops_cons rfl _) stops'
          (left.trans (List.nil_append rest).symm)
        cases after with
        | last => exact .inl (.cons agree .nil)
        | next => cases (List.cons_eq_cons.mp tail).1
      · have sign : '#' ∈ blanks ++ ']' :: closing := by simp [left]
        rcases List.mem_append.mp sign with sign | sign
        · exact absurd sign (sign_not_mem_blanks blank)
        · exact absurd (List.mem_of_ne_of_mem (by decide) sign) (sign_not_mem_blanks blank')
  | @cons text before between later again found based writes blanks' blanks'' written ih =>
      obtain ⟨rest, after, whole⟩ := exists_after item more
      obtain ⟨stops, stops'⟩ := after.stops
      have ends : Text.Stops isNumberChar
          (before ++ ',' :: (between ++ (later ++ (blanks ++ ']' :: closing)))) :=
        stops_isNumberChar blanks' (Text.stops_cons rfl _)
      have parts : text ++ (before ++ ',' :: (between ++ (later ++ (blanks ++ ']' :: closing)))) =
          item.literal ++ rest := by
        rw [← whole, ← same]
        simp
      rcases writes.cut ends stops parts with ⟨agree, left⟩ | ⟨piece, cut, rfl, first, left⟩
      · obtain ⟨_, tail⟩ := Text.run_unique blanks' Text.blanks_nil (Text.stops_cons rfl _) stops'
          (left.trans (List.nil_append rest).symm)
        cases after with
        | last => cases (List.cons_eq_cons.mp tail).1
        | next next more =>
            obtain ⟨_, inside⟩ := Text.run_unique blanks'' Text.blanks_space
              (written.opens.append _).stops ((opens_join next more).append _).stops
              (List.cons_eq_cons.mp tail).2
            rcases ih inside with agrees | ⟨isRaw, piece, member, separating⟩
            · exact .inl (.cons agree agrees)
            · exact .inr ⟨isRaw, piece, List.mem_cons_of_mem _ member, separating⟩
      · have isRaw : base = .raw := based.symm.trans (base_eq_of_append writes parts)
        subst isRaw
        exact .inr ⟨rfl, _, List.mem_cons_self,
          separating_of_cut first blanks' blanks'' written left⟩

end Literal

/-! ## Values -/

namespace Value

/-- A value whose literal separates pieces where the value does not: an array of raw pieces, one of
which separates pieces itself. -/
def Splits : Value → Prop
  | .array .raw items => ∃ piece, .raw piece ∈ items ∧ Separating piece
  | _ => False

/-- A literal of an equal value can be written. -/
def Expressible (value : Value) : Prop :=
  ∃ text again, parse value.type text = .ok again ∧ again.agrees value = true

/-- What is read from the literal of a value is equal to the value, or the value splits. -/
theorem agrees_or_splits {value again : Value}
    (parsed : parse value.type value.literal = .ok again) :
    again.agrees value = true ∨ value.Splits := by
  obtain ⟨before, literal, after, blank, writes, blank', same⟩ := writes_of_parse parsed
  cases value with
  | scalar item =>
      obtain ⟨found, rfl, _, written⟩ := Writes.exists_item writes
      obtain ⟨_, whole⟩ := Text.run_unique Text.blanks_nil blank item.opens_literal.stops
        (written.opens.append after).stops same
      have ends : Text.Stops isNumberChar after := by
        have stops := stops_isNumberChar blank' (Text.stops_nil isNumberChar)
        rwa [List.append_nil] at stops
      rcases written.cut ends (Text.stops_nil _) (whole.symm.trans (List.append_nil _).symm) with
        ⟨agree, _⟩ | ⟨_, more, _, _, left⟩
      · exact .inl agree
      · -- the number sign that closes the piece is left over
        refine absurd ?_ (sign_not_mem_blanks blank')
        rw [left]
        exact List.mem_append_right _ List.mem_cons_self
  | array base items =>
      obtain ⟨_, whole⟩ := Text.run_unique Text.blanks_nil blank (Text.stops_cons rfl _)
        (writes.stops after) same
      have closes : Text.Stops Text.isBlank (']' :: after) := Text.stops_cons rfl after
      cases writes with
      | @empty _ blanks blank =>
          cases items with
          | nil => exact .inl (agrees_array_iff.mpr ⟨rfl, .nil⟩)
          | cons item more =>
              have opens := (opens_join item more).append [']']
              have inside : [] ++
                  (Text.join [',', ' '] ((item :: more).map Scalar.literal) ++ [']']) =
                    blanks ++ ']' :: after := by
                simpa [Value.literal] using whole
              obtain ⟨_, closed⟩ := Text.run_unique Text.blanks_nil blank opens.stops closes inside
              exact absurd (congrArg List.head? closed) opens.head?_ne
      | @items _ blanks text blanks' found blank writes blank'' =>
          have opens := writes.opens.append (blanks' ++ ']' :: after)
          cases items with
          | nil =>
              have inside : [] ++ [']'] = blanks ++ (text ++ (blanks' ++ ']' :: after)) := by
                simpa [Value.literal, Text.join] using whole
              obtain ⟨_, closed⟩ := Text.run_unique Text.blanks_nil blank (Text.stops_cons rfl [])
                opens.stops inside
              exact absurd (congrArg List.head? closed.symm) opens.head?_ne
          | cons item more =>
              have inside : blanks ++ (text ++ (blanks' ++ ']' :: after)) =
                  [] ++ (Text.join [',', ' '] ((item :: more).map Scalar.literal) ++ [']']) := by
                simpa [Value.literal] using whole.symm
              obtain ⟨_, cut⟩ := Text.run_unique blank Text.blanks_nil opens.stops
                ((opens_join item more).append _).stops inside
              rcases agree_or_separating writes blank'' blank' cut with agrees | ⟨rfl, separating⟩
              · exact .inl (agrees_array_iff.mpr ⟨rfl, agrees⟩)
              · exact .inr separating

/-- The raw pieces of an array that can be expressed have no number sign. -/
theorem Expressible.sign_not_mem {items : List Scalar}
    (expressible : (Value.array .raw items).Expressible) {piece : Text}
    (member : .raw piece ∈ items) : '#' ∉ piece := by
  obtain ⟨text, again, parsed, agree⟩ := expressible
  obtain ⟨_, _, _, _, writes, _⟩ := writes_of_parse parsed
  cases writes with
  | empty =>
      obtain ⟨_, none⟩ := agrees_array_iff.mp agree
      cases none
      cases member
  | items _ writes =>
      obtain ⟨_, agrees⟩ := agrees_array_iff.mp agree
      obtain ⟨item, inside, agree⟩ := exists_agrees agrees _ member
      obtain ⟨based, _, written⟩ := writes.exists_item item inside
      have notNum : item.base ≠ .num := by rw [based]; exact BaseType.noConfusion
      obtain rfl := Scalar.eq_of_agrees agree notNum
      exact fun sign => (written.representable notNum '#' sign).1 rfl

/-- A value that splits cannot be expressed. -/
theorem Splits.not_expressible {value : Value} (splits : value.Splits) : ¬ value.Expressible := by
  match value with
  | .scalar _ | .array .str _ | .array .num _ => exact splits.elim
  | .array .raw items =>
      obtain ⟨piece, member, separating⟩ := splits
      intro expressible
      refine expressible.sign_not_mem member ?_
      cases separating
      exact List.mem_append_right _ List.mem_cons_self

/-- What a value is read back as. If its literal is read at all, that is an equal value exactly if
the value does not split; and the literal of a value that no literal can express is refused, unless
the value splits. -/
structure ReadsBack (value : Value) : Prop where
  faithful : ∀ again, parse value.type value.literal = .ok again →
    (again.agrees value = true ↔ ¬ value.Splits)
  refused : ¬ value.Expressible → ¬ value.Splits →
    ∃ error, parse value.type value.literal = .error error

/-- **A literal that is read has its value again, unless the value splits.** -/
theorem faithful_unless_splits (value : Value) : value.ReadsBack where
  faithful := by
    intro again parsed
    constructor
    · exact fun agree splits => splits.not_expressible ⟨value.literal, again, parsed, agree⟩
    · exact (agrees_or_splits parsed).resolve_right
  refused := by
    intro notExpressible whole
    cases parsed : parse value.type value.literal with
    | error error => exact ⟨error, rfl⟩
    | ok again =>
        have agree := (agrees_or_splits parsed).resolve_right whole
        exact absurd ⟨value.literal, again, parsed, agree⟩ notExpressible

/-- One raw piece of an array that is read as two. -/
theorem reads_back_as_two :
    let value : Value := .array .raw [.raw "a#, #b".toList]
    let again : Value := .array .raw [.raw ['a'], .raw ['b']]
    parse value.type value.literal = .ok again ∧ again.agrees value = false ∧
      ¬ value.Expressible := by
  intro value again
  have first : ∀ c ∈ ['a'], c ≠ '#' := List.forall_mem_singleton.mpr (by decide)
  have next : ∀ c, ['#', 'b'].head? = some c → c = '#' :=
    fun _ start => (Option.some.inj start).symm
  have splits : value.Splits :=
    ⟨_, List.mem_singleton.mpr rfl, .intro first Text.blanks_nil Text.blanks_space next⟩
  exact ⟨by decide +kernel, by decide +kernel, splits.not_expressible⟩

end Value
end TypedQuery
