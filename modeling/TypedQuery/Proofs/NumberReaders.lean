import TypedQuery.Proofs.LiteralOffsets
import TypedQuery.Proofs.PrintedHeader

/-!
# The two readers of numbers

A number is read as a literal up to a delimiter, after a look at its first character, and as an
argument as a whole text. The two readers take the same texts for the same numbers
(`number_readers_agree`): a text is a literal of a number exactly if it is the argument of that
number when the blanks around it are dropped, and an argument that is a number may be written as
the default of a parameter, where it is that number again.

Both sides are said by the grammar of literals. A text has a value exactly if the text without the
blanks around it is a literal of the value (`Literal.parse_eq_ok_iff_trimBlanks`), and a text is the
argument of a number exactly if it is a literal of the number as it stands
(`Literal.coerce_num_eq_ok_iff`).
-/

set_option autoImplicit false

namespace TypedQuery

namespace Text

/-! ## Texts without the blanks around them -/

/-- A text without the blanks at its two ends. -/
def trimBlanks (text : Text) : Text := dropRightWhile isBlank (dropBlanks text)

/-- The blanks around a text are dropped, and it is left as it stands. -/
theorem trimBlanks_append {before inner after : Text} (blank : Blanks before)
    (front : Stops isBlank (inner ++ after)) (back : Stops isBlank inner.reverse)
    (blank' : Blanks after) : trimBlanks (before ++ (inner ++ after)) = inner := by
  have blankReversed : ∀ c ∈ after.reverse, isBlank c = true :=
    fun c member => blank' c (List.mem_reverse.mp member)
  rw [trimBlanks, dropBlanks_append blank front, dropRightWhile, List.reverse_append,
    dropWhile_append blankReversed back, List.reverse_reverse]

/-- What is dropped around a text are blanks. -/
theorem exists_blanks_around (text : Text) : ∃ before after, Blanks before ∧ Blanks after ∧
    text = before ++ (trimBlanks text ++ after) := by
  obtain ⟨before, blank, starts⟩ := exists_blanks text
  obtain ⟨after, blank', ends⟩ := exists_dropped isBlank (dropBlanks text)
  exact ⟨before, after, blank, blank', by rw [trimBlanks, ← ends, ← starts]⟩

/-- No line end is taken off a line that ends with a text on one line. -/
theorem chomp_append_oneLine {text : Text} (some : text ≠ []) (oneLine : text.OneLine)
    (front : Text) : chomp (front ++ text) = front ++ text := by
  refine chomp_of_stops fun c last => ?_
  rw [List.head?_reverse, List.getLast?_append_of_ne_nil front some] at last
  exact oneLine c (List.mem_of_getLast? last)

end Text

namespace Literal

/-! ## What the readers take -/

/-- **A text has a value exactly if it is a literal of the value** when the blanks around it are
dropped. -/
theorem parse_eq_ok_iff_trimBlanks {type : ParamType} {text : Text} {value : Value} :
    parse type text = .ok value ↔ Writes type (Text.trimBlanks text) value := by
  constructor
  · intro parsed
    obtain ⟨before, literal, after, blank, writes, blank', rfl⟩ := writes_of_parse parsed
    rwa [Text.trimBlanks_append blank (writes.stops after) writes.stops_reverse blank']
  · intro writes
    obtain ⟨before, after, blank, blank', parts⟩ := Text.exists_blanks_around text
    rw [parts]
    exact parse_of_writes blank writes blank'

/-- **A text is the argument of a number exactly if it is a literal of the number** as it stands. -/
theorem coerce_num_eq_ok_iff {text : Text} {item : Scalar} :
    coerce .num text = .ok item ↔ Writes (.scalar .num) text (.scalar item) := by
  constructor
  · intro taken
    simp only [coerce] at taken
    split at taken
    · next number found =>
        obtain rfl := Except.ok.inj taken
        obtain ⟨decimal, magnitude, writes, nearest, rfl⟩ :=
          (Numeral.double?_eq_some_iff _ _).mp found
        exact .scalar (.num writes nearest)
    · cases taken
  · intro writes
    obtain ⟨item, same, isNum, written⟩ := writes.exists_item
    obtain rfl := Value.scalar.inj same
    cases written with
    | str | raw => cases isNum
    | num numeral nearest =>
        have found := (Numeral.double?_eq_some_iff text _).mpr ⟨_, _, numeral, nearest, rfl⟩
        rw [coerce, found]

end Literal

/-! ## Numbers as defaults -/

/-- A line that declares a number by its name, with a text as the default. -/
def Declaration.numberLine (marker name text : Text) : Text :=
  marker ++ ' ' :: (name ++ ':' :: ([' ', 'n', 'u', 'm', ' ', '=', ' '] ++ text))

/-- The declaration of a number that has a default and no help text. -/
def Declaration.ofNumber (name : Text) (item : Scalar) : Declaration :=
  ⟨name, .scalar .num, some (.scalar item), name, 0⟩

/-- A literal of a number that stands as the default is what the line declares. -/
theorem Declaration.declares_numberLine {name text : Text} {item : Scalar}
    (named : Text.isName name = true)
    (writes : Literal.Writes (.scalar .num) text (.scalar item)) (marker : Text) :
    Declares marker (numberLine marker name text) (ofNumber name item) := by
  obtain ⟨parsed, front, back⟩ := Literal.writes_iff_parse.mp writes
  have given : WritesDefault (.scalar .num) ('=' :: ([' '] ++ (text ++ [])))
      (some (.scalar item)) :=
    .present Text.blanks_space parsed front back Text.blanks_nil
  have helped : WritesHelp name [] name := .none (List.forall_mem_nil _)
  have stated : Says name 0 ([' '] ++ (BaseType.num.keyword ++ ([' '] ++
      ('=' :: ([' '] ++ (text ++ [])) ++ [])))) (ofNumber name item) :=
    .intro Text.blanks_space (.scalar .num) Text.blanks_space given helped
  have parts : [' '] ++ (BaseType.num.keyword ++ ([' '] ++
      ('=' :: ([' '] ++ (text ++ [])) ++ []))) = [' ', 'n', 'u', 'm', ' ', '=', ' '] ++ text := by
    simp [BaseType.keyword]
  have whole : Text.chomp (numberLine marker name text) = numberLine marker name text := by
    have front : numberLine marker name text =
        (marker ++ ' ' :: (name ++ ':' :: [' ', 'n', 'u', 'm', ' ', '=', ' '])) ++ text := by
      simp [numberLine]
    rw [front, Text.chomp_append_oneLine writes.ne_nil writes.oneLine]
  rw [parts] at stated
  refine ⟨_, ?_, read_dropBlanks_eq_ok_iff.mpr stated⟩
  rw [whole]
  exact opening?_append named marker _

/-- What the two readers of numbers make of a text. -/
structure NumberReadersAgree (text : Text) : Prop where
  parsed : ∀ number, Literal.parse (.scalar .num) text = .ok (.scalar (.num number)) ↔
    Literal.coerce .num (Text.trimBlanks text) = .ok (.num number)
  declared : ∀ item, Literal.coerce .num text = .ok item → ∀ marker, '\n' ∉ marker →
    ∀ name, Text.isName name = true →
      Header.read marker (Declaration.numberLine marker name text) =
        .ok ⟨[Declaration.ofNumber name item], []⟩

/-- **The two readers of numbers agree**: on the number of a text, and on the number that the text
is as a default. -/
theorem number_readers_agree (text : Text) : NumberReadersAgree text where
  parsed number := Literal.parse_eq_ok_iff_trimBlanks.trans Literal.coerce_num_eq_ok_iff.symm
  declared item taken marker inLine name named := by
    have writes := Literal.coerce_num_eq_ok_iff.mp taken
    have some : Declaration.numberLine marker name text ≠ [] := by simp [Declaration.numberLine]
    have uncut : '\n' ∉ Declaration.numberLine marker name text := by
      simp [Declaration.numberLine, inLine, Text.newline_not_mem_of_isName named,
        writes.oneLine.newline_not_mem]
    exact Header.read_of_declares (Declaration.declares_numberLine named writes marker)
      (Text.lines_of_not_mem some uncut)

/-- A sign, digits of another script and a power of ten. -/
example : Header.read "--?".toList
      (Declaration.numberLine "--?".toList ['a'] "+٣.٥e1".toList) =
    Header.read "--?".toList (Declaration.numberLine "--?".toList ['a'] "35".toList) := by
  decide +kernel

end TypedQuery
