import TypedQuery.Proofs.Tokens
import TypedQuery.Proofs.Typing

/-!
# A header line by line

Where a text has a header, it is some lines and the body, and nothing is lost between them. Each of
the lines declares one parameter, and the same one when it stands alone; its place among the lines
is the order of the declaration (`Header.splits_of_read`). Every declaration is well formed: it has
a name and a trimmed help text, and its default is of the declared type.

The first line of the body does not open as a declaration. That is said of the line itself, without
the reader: no marker, name and colon stand at its front with blanks between them
(`Declaration.opens_iff`).
-/

set_option autoImplicit false

namespace TypedQuery

namespace Declaration

/-! ## Lines that open as declarations -/

/-- A line opens as a declaration: a marker, a name and a colon stand at its front, with blanks at
most between them. -/
def Opens (marker line : Text) : Prop :=
  ∃ before name after tail, Text.Blanks before ∧ Text.isName name = true ∧ Text.Blanks after ∧
    line = marker ++ (before ++ (name ++ (after ++ ':' :: tail)))

theorem opening?_eq_some_iff {marker line name rest : Text} :
    opening? marker line = some (name, rest) ↔ ∃ before after tail, Text.Blanks before ∧
      Text.isName name = true ∧ Text.Blanks after ∧
      line = marker ++ (before ++ (name ++ (after ++ ':' :: tail))) ∧
      rest = Text.dropBlanks tail := by
  constructor
  · intro opens
    unfold opening? at opens
    split at opens
    · cases opens
    · next inner marked =>
        split at opens
        · cases opens
        · next found last read =>
            split at opens
            · next tail colon =>
                obtain ⟨rfl, rfl⟩ := Prod.mk.inj (Option.some.inj opens)
                obtain ⟨named, whole⟩ := Text.isName_of_readName? read
                obtain ⟨before, blank, front⟩ := Text.exists_blanks inner
                obtain ⟨after, blank', back⟩ := Text.exists_blanks last
                rw [colon] at back
                rw [whole, back] at front
                refine ⟨before, after, tail, blank, named, blank', ?_, rfl⟩
                rw [(Text.dropOpening?_eq_some_iff _ _ _).mp marked, front]
            · cases opens
  · rintro ⟨before, after, tail, blank, named, blank', rfl, rfl⟩
    have marked : Text.dropOpening? marker
        (marker ++ (before ++ (name ++ (after ++ ':' :: tail)))) =
          some (before ++ (name ++ (after ++ ':' :: tail))) :=
      (Text.dropOpening?_eq_some_iff _ _ _).mpr rfl
    have colon : Text.Stops Text.isBlank (':' :: tail) := Text.stops_cons rfl tail
    have ends : Text.EndsName (after ++ ':' :: tail) := by
      cases after with
      | nil => exact Text.stops_cons rfl tail
      | cons c after =>
          refine Text.stops_cons (Bool.eq_false_iff.mpr fun char => ?_) _
          have noBlank := Text.isBlank_eq_false (Text.isSpace_of_isNameChar char)
          rw [blank' c List.mem_cons_self] at noBlank
          cases noBlank
    have opened := Text.stops_isBlank_of_isName named
    simp only [opening?, marked, Text.dropBlanks_append blank (opened _),
      Text.readName?_append named ends, Text.dropBlanks_append blank' colon]

/-- The line ends that close a line do not decide whether it opens as a declaration. -/
theorem opens_iff {marker line : Text} :
    Opens marker line ↔ ∃ found, opening? marker (Text.chomp line) = some found := by
  constructor
  · rintro ⟨before, name, after, tail, blank, named, blank', rfl⟩
    have parts (tail : Text) : marker ++ (before ++ (name ++ (after ++ ':' :: tail))) =
        (marker ++ (before ++ (name ++ after))) ++ ':' :: tail := by simp
    refine ⟨(name, Text.dropBlanks (Text.chomp tail)), opening?_eq_some_iff.mpr ?_⟩
    refine ⟨before, after, Text.chomp tail, blank, named, blank', ?_, rfl⟩
    rw [parts, parts, Text.chomp_append_cons rfl]
  · rintro ⟨⟨name, rest⟩, opens⟩
    obtain ⟨before, after, tail, blank, named, blank', front, _⟩ := opening?_eq_some_iff.mp opens
    obtain ⟨closing, whole⟩ := Text.chomp_prefix line
    refine ⟨before, name, after, tail ++ closing, blank, named, blank', ?_⟩
    rw [← whole, front]
    simp

/-! ## Declarations -/

/-- A declaration has a name and a trimmed help text, and a default of the declared type if it has
one. -/
structure WellFormed (declaration : Declaration) : Prop where
  named : Text.isName declaration.name = true
  typed : ∀ value, declaration.default = some value → value.type = declaration.type
  explained : declaration.help ≠ []
  trimmed : declaration.help.Trimmed

theorem trimmed_of_readHelp {name input help : Text} (named : Text.isName name = true)
    (taken : readHelp name input = .ok help) : help ≠ [] ∧ help.Trimmed := by
  have byName : name ≠ [] ∧ name.Trimmed := by
    refine ⟨?_, Text.trimmed_of_isName named⟩
    rintro rfl
    cases named
  unfold readHelp at taken
  split at taken
  · split at taken
    · obtain rfl := Except.ok.inj taken
      exact byName
    · next note some =>
        obtain rfl := Except.ok.inj taken
        exact ⟨some, Text.trimmed_strip note⟩
  · split at taken
    · obtain rfl := Except.ok.inj taken
      exact byName
    · cases taken

theorem Declares.wellFormed {marker line : Text} {declaration : Declaration}
    (declares : Declares marker line declaration) : declaration.WellFormed := by
  have sound := declares.sound
  obtain ⟨rest, opens, taken⟩ := declares
  obtain ⟨_, _, _, _, named, _⟩ := opening?_eq_some_iff.mp opens
  obtain ⟨_, _, _, _, _, _, _, helped, same⟩ := read_eq_ok_iff.mp taken
  have help : declaration.help ≠ [] ∧ declaration.help.Trimmed := by
    rw [same]
    exact trimmed_of_readHelp named helped
  exact ⟨named, fun value given => Value.type_of_fits (sound value given), help.1, help.2⟩

end Declaration

namespace Header

open Declaration

/-- A text is some lines that declare the parameters of its header, and the body. -/
structure Splits (marker text : Text) (header : Header) (lines : List Text) : Prop where
  whole : text = lines.flatten ++ header.body
  ended : ∀ i line, lines[i]? = some line →
    line.Ended ∨ ('\n' ∉ line ∧ i + 1 = lines.length ∧ header.body = [])
  alone : List.Forall₂ (fun line declaration =>
    read marker line = .ok ⟨[{ declaration with order := 0 }], []⟩) lines header.declarations
  orders : header.declarations.map Declaration.order = List.range header.declarations.length
  distinct : (header.declarations.map Declaration.name).Nodup
  wellFormed : ∀ declaration ∈ header.declarations, declaration.WellFormed
  unopened : ∀ line, (Text.lines header.body).head? = some line → ¬ Opens marker line
  rest : read marker header.body = .ok ⟨[], header.body⟩

/-- A line that declares a parameter declares it when it stands alone. -/
theorem read_of_declares {marker line : Text} {declaration : Declaration}
    (declares : Declares marker line declaration) (uncut : Text.lines line = [line]) :
    read marker line = .ok ⟨[{ declaration with order := 0 }], []⟩ := by
  refine ofLines_eq_ok_iff.mpr ⟨[line], [], by rw [uncut, List.append_nil], ?_, rfl, ?_⟩
  · exact .cons (declares.renumber 0) rfl List.not_mem_nil .nil
  · intro first none
    cases none

/-- **A text is split between its header and its body.** Nothing is lost by the split, every line
of the header declares what it declares alone, in its place among the lines, with a name that no
other line declares, and nothing opens a declaration in the body. -/
theorem splits_of_read {marker text : Text} {header : Header}
    (taken : read marker text = .ok header) : ∃ lines, Splits marker text header lines := by
  have closed := opensNone_body taken
  obtain ⟨earlier, later, cut, declared, body, _⟩ := ofLines_eq_ok_iff.mp taken
  have whole := Text.flatten_lines text
  rw [cut, List.flatten_append, ← body] at whole
  refine ⟨earlier, whole.symm, ?_, ?_, ?_, declared.distinct List.nodup_nil, ?_, ?_,
    read_of_opensNone closed⟩
  · intro i line there
    have within : i < earlier.length := (List.getElem?_eq_some_iff.mp there).1
    rw [← List.getElem?_append_left within, ← cut] at there
    rcases Text.ended_of_lines there with ended | ⟨open', last⟩
    · exact .inl ended
    · rw [cut, List.length_append] at last
      have none : later = [] := List.length_eq_zero_iff.mp (by omega)
      rw [none] at body
      exact .inr ⟨open', by omega, body⟩
  · have uncut : ∀ line ∈ earlier, Text.lines line = [line] := fun line member =>
      Text.lines_of_mem_lines (cut ▸ List.mem_append_left later member)
    refine ((List.forall₂_and_left earlier _).mpr ⟨uncut, declared.declares⟩).imp ?_
    exact fun line declaration both => read_of_declares both.2 both.1
  · rw [declared.orders, List.range_eq_range']
    rfl
  · intro declaration member
    obtain ⟨line, _, declares⟩ := declared.exists_line member
    exact declares.wellFormed
  · intro line first opens
    obtain ⟨found, opened⟩ := opens_iff.mp opens
    rw [closed line first] at opened
    cases opened

/-- A carriage return, slashes inside a default, and a first line of the body that is empty. -/
theorem splits_of_read_slashes :
    let marker := "--?".toList
    let text := "--? name : str= 'b//' // the name\r\n--?by:raw = #n#\n\n--? a: str".toList
    let name : Declaration :=
      ⟨"name".toList, .scalar .str, some (.scalar (.str "b//".toList)), "the name".toList, 0⟩
    let order : Declaration :=
      ⟨"by".toList, .scalar .raw, some (.scalar (.raw ['n'])), "by".toList, 1⟩
    let body := "\n--? a: str".toList
    read marker text = .ok ⟨[name, order], body⟩ ∧
      ∃ lines, Splits marker text ⟨[name, order], body⟩ lines := by
  intro marker text name order body
  have taken : read marker text = .ok ⟨[name, order], body⟩ := by decide +kernel
  exact ⟨taken, splits_of_read taken⟩

end Header
end TypedQuery
