import TypedQuery.Proofs.DeclarationGrammar
import TypedQuery.Proofs.Printing

/-!
# Headers that are printed and read again

A declaration is printed on a line: the marker, the name, the type, the default as a literal if
there is one, and the help text (`Declaration.line`). Printed declarations with different names,
in front of a body that declares nothing, are read back as they were, in their order, and the body
is left as it is (`Header.read_printed`).

What is printed after the name follows the grammar of declarations and says the same
(`Declaration.says_contents`). That holds whatever the default contains, since its literal is a part
of its own in front of the two slashes, and whatever the marker is, since it is taken as it stands.
The line feed at the end of a line is the only one in it, and no white space stands before it, so
cutting into lines and dropping line ends gives the printed line.
-/

set_option autoImplicit false

namespace TypedQuery

open Literal

/-! ## The printed form -/

namespace Declaration

/-- The default of a declaration as it is printed after the type. -/
def defaultText : Option Value → Text
  | none => []
  | some value => ' ' :: '=' :: ' ' :: value.literal

/-- What is printed of a declaration after its name. -/
def contents (declaration : Declaration) : Text :=
  declaration.type.text ++
    (defaultText declaration.default ++ ' ' :: '/' :: '/' :: ' ' :: declaration.help)

/-- A declaration as it is printed on a line. -/
def line (marker : Text) (declaration : Declaration) : Text :=
  marker ++ ' ' :: (declaration.name ++ ':' :: ' ' :: declaration.contents)

/-- A declaration that can be printed: the default is of the declared type and survives its literal,
and the help text stands on one line and is trimmed. -/
structure Printable (declaration : Declaration) : Prop where
  named : Text.isName declaration.name = true
  typed : ∀ value, declaration.default = some value → value.type = declaration.type
  survives : ∀ value, declaration.default = some value → value.Survives
  explained : declaration.help ≠ []
  trimmed : Text.strip declaration.help = declaration.help
  inLine : '\n' ∉ declaration.help

/-- Two declarations say the same of a parameter, with equal defaults. -/
structure Agrees (first second : Declaration) : Prop where
  name : first.name = second.name
  type : first.type = second.type
  default : Option.Rel (fun value value' => value.agrees value' = true) first.default second.default
  help : first.help = second.help

end Declaration

/-- Declarations as they are printed, each on a line of its own. -/
def Header.text (marker : Text) (declarations : List Declaration) : Text :=
  (declarations.map (Declaration.line marker)).flatMap (· ++ ['\n'])

/-! ## What a line says -/

namespace Declaration

/-- A type is printed as the grammar writes it. -/
theorem writesType_text (type : ParamType) : WritesType type.text type := by
  cases type with
  | scalar base => exact .scalar base
  | array base => exact .array base Text.blanks_nil Text.blanks_nil

/-- What is printed of a declaration after its name follows the grammar, and says the same. -/
theorem says_contents {declaration : Declaration} (printable : declaration.Printable)
    (order : Nat) : ∃ again, Says declaration.name order (' ' :: declaration.contents) again ∧
      again.Agrees declaration ∧ again.order = order := by
  have typed := writesType_text declaration.type
  have helped : WritesHelp declaration.name ('/' :: '/' :: ' ' :: declaration.help)
      declaration.help := by
    have note : WritesHelp declaration.name _ _ := .note (' ' :: declaration.help)
    have trimmed : Text.strip (' ' :: declaration.help) = declaration.help := printable.trimmed
    rwa [trimmed, if_neg printable.explained] at note
  cases given : declaration.default with
  | none =>
      refine ⟨⟨declaration.name, declaration.type, none, declaration.help, order⟩, ?_,
        ⟨rfl, rfl, by rw [given]; exact .none, rfl⟩, rfl⟩
      have parts : ' ' :: declaration.contents = [' '] ++ (declaration.type.text ++
          ([' '] ++ ([] ++ '/' :: '/' :: ' ' :: declaration.help))) := by
        simp [contents, defaultText, given]
      rw [parts]
      exact .intro Text.blanks_space typed Text.blanks_space .absent helped
  | some value =>
      obtain ⟨again, parsed, agree⟩ := printable.survives value given
      obtain ⟨before, literal, after, blank, writes, blank', same⟩ := writes_of_parse parsed
      rw [printable.typed value given] at writes
      obtain ⟨parsed', front, back⟩ := writes_iff_parse.mp writes
      refine ⟨⟨declaration.name, declaration.type, some again, declaration.help, order⟩, ?_,
        ⟨rfl, rfl, by rw [given]; exact .some agree, rfl⟩, rfl⟩
      have parts : ' ' :: declaration.contents = [' '] ++ (declaration.type.text ++ ([' '] ++
          (('=' :: ((' ' :: before) ++ (literal ++ (after ++ [' '])))) ++
            '/' :: '/' :: ' ' :: declaration.help))) := by
        simp [contents, defaultText, given, same]
      have blanks : Text.Blanks (' ' :: before) := List.forall_mem_cons.mpr ⟨rfl, blank⟩
      have blanks' : Text.Blanks (after ++ [' ']) :=
        List.forall_mem_append.mpr ⟨blank', Text.blanks_space⟩
      rw [parts]
      exact .intro Text.blanks_space typed Text.blanks_space
        (.present blanks parsed' front back blanks') helped

end Declaration

/-! ## Lines -/

/-- The literal of a value that survives stands on one line. -/
theorem Value.Survives.oneLine {value : Value} (survives : value.Survives) :
    value.literal.OneLine := by
  obtain ⟨_, parsed, _⟩ := survives
  obtain ⟨before, literal, after, blank, writes, blank', same⟩ := writes_of_parse parsed
  rw [same]
  refine List.forall_mem_append.mpr ⟨blank.oneLine, ?_⟩
  exact List.forall_mem_append.mpr ⟨writes.oneLine, blank'.oneLine⟩

theorem Text.OneLine.newline_not_mem {text : Text} (oneLine : text.OneLine) : '\n' ∉ text := by
  intro member
  cases oneLine _ member

namespace Declaration

/-- A line that is put together from the marker, a name and a colon opens a declaration. -/
theorem opening?_append {name : Text} (named : Text.isName name = true) (marker rest : Text) :
    opening? marker (marker ++ ' ' :: (name ++ ':' :: rest)) =
      some (name, Text.dropBlanks rest) :=
  opening?_eq_some_iff.mpr
    ⟨[' '], [], rest, Text.blanks_space, named, Text.blanks_nil, rfl, rfl⟩

/-- A declaration is printed on one line. -/
theorem newline_not_mem_line {marker : Text} (inLine : '\n' ∉ marker) {declaration : Declaration}
    (printable : declaration.Printable) : '\n' ∉ declaration.line marker := by
  have type : '\n' ∉ declaration.type.text := by
    rcases declaration.type with base | base <;> cases base <;> decide
  have default : '\n' ∉ defaultText declaration.default := by
    cases given : declaration.default with
    | none => exact List.not_mem_nil
    | some value =>
        have oneLine := (printable.survives value given).oneLine
        simp [defaultText, oneLine.newline_not_mem]
  simp [line, contents, inLine, Text.newline_not_mem_of_isName printable.named, type, default,
    printable.inLine]

/-- A printed line ends with its help text. -/
theorem exists_line (marker : Text) (declaration : Declaration) :
    ∃ front, declaration.line marker = front ++ declaration.help := by
  refine ⟨marker ++ ' ' :: (declaration.name ++ ':' :: ' ' :: (declaration.type.text ++
    (defaultText declaration.default ++ [' ', '/', '/', ' ']))), ?_⟩
  simp [line, contents]

theorem chomp_line {declaration : Declaration} (printable : declaration.Printable)
    (marker : Text) : Text.chomp (declaration.line marker ++ ['\n']) = declaration.line marker := by
  obtain ⟨front, same⟩ := exists_line marker declaration
  have stops := (Text.trimmed_strip declaration.help).back
  rw [printable.trimmed] at stops
  obtain ⟨last, before, reversed⟩ := List.exists_cons_of_ne_nil
    (List.reverse_ne_nil_iff.mpr printable.explained)
  rw [reversed] at stops
  have stops' : Text.Stops Text.isLineEnd (declaration.line marker).reverse := by
    rw [same, List.reverse_append, reversed]
    exact Text.stops_cons (Text.isLineEnd_eq_false (stops last rfl)) _
  rw [Text.chomp_append_newline, Text.chomp_of_stops stops']

end Declaration

namespace Header

/-- A printed line declares what it was printed for, if the name is new. -/
theorem declare_line {declaration : Declaration} (printable : declaration.Printable) (marker : Text)
    {above : List Text} (new : declaration.name ∉ above) :
    ∃ again, declare marker above (Text.chomp (declaration.line marker ++ ['\n'])) =
        some (.ok again) ∧ again.Agrees declaration ∧ again.order = above.length := by
  obtain ⟨again, stated, agree, order⟩ := Declaration.says_contents printable above.length
  have opened : Declaration.opening? marker (declaration.line marker) =
      some (declaration.name, Text.dropBlanks (' ' :: declaration.contents)) :=
    Declaration.opening?_append printable.named marker _
  refine ⟨again, ?_, agree, order⟩
  rw [Declaration.chomp_line printable]
  exact (declare_eq_ok_iff_of_opens opened).mpr ⟨stated, new⟩

/-- Printed lines are read as their declarations, below any other names. -/
theorem ofLines_printed {marker : Text} {declarations : List Declaration}
    (printable : ∀ declaration ∈ declarations, declaration.Printable) {above : List Text}
    (distinct : (above ++ declarations.map Declaration.name).Nodup) {body : Text}
    (plain : OpensNone marker body) :
    ∃ found, ofLines marker above
        ((declarations.map (Declaration.line marker)).map (· ++ ['\n']) ++ Text.lines body) =
          .ok ⟨found, body⟩ ∧
      List.Forall₂ Declaration.Agrees found declarations ∧
      found.map Declaration.order = List.range' above.length declarations.length := by
  -- the names above grow by the name of each line, and the rest stays distinct from them
  induction declarations generalizing above with
  | nil => exact ⟨[], ofLines_of_opensNone plain above, .nil, rfl⟩
  | cons declaration later ih =>
      obtain ⟨here, rest⟩ := List.forall_mem_cons.mp printable
      have new : declaration.name ∉ above := by
        intro member
        refine (List.nodup_append.mp distinct).2.2 _ member _ ?_ rfl
        exact List.mem_cons_self
      obtain ⟨again, declared, agree, order⟩ := declare_line here marker new
      have below : ((above ++ [again.name]) ++ later.map Declaration.name).Nodup := by
        rw [agree.name, List.append_assoc]
        exact distinct
      obtain ⟨found, taken, agrees, orders⟩ := ih rest below
      refine ⟨again :: found, ?_, .cons agree agrees, ?_⟩
      · simp only [List.map_cons, List.cons_append, ofLines, declared, taken]
        rfl
      · rw [List.map_cons, order, orders, List.length_append, List.length_singleton]
        rfl

/-- **A printed header is read back.** Declarations with different names that are printed in front
of a text without declarations are read as declarations that say the same, in their order and
counted from zero, and the text is the body. -/
theorem read_printed {marker : Text} (inLine : '\n' ∉ marker) {declarations : List Declaration}
    (printable : ∀ declaration ∈ declarations, declaration.Printable)
    (distinct : (declarations.map Declaration.name).Nodup) {body : Text}
    (plain : read marker body = .ok ⟨[], body⟩) :
    ∃ found, read marker (text marker declarations ++ body) = .ok ⟨found, body⟩ ∧
      List.Forall₂ Declaration.Agrees found declarations ∧
      found.map Declaration.order = List.range declarations.length := by
  have lines : ∀ line ∈ declarations.map (Declaration.line marker), '\n' ∉ line := by
    intro line member
    obtain ⟨declaration, inside, rfl⟩ := List.mem_map.mp member
    exact Declaration.newline_not_mem_line inLine (printable declaration inside)
  rw [List.range_eq_range', read, text, Text.lines_flatMap lines]
  exact ofLines_printed printable distinct (opensNone_body plain)

/-- Slashes, quotes, brackets and the marker inside defaults and help texts. -/
theorem read_printed_slashes :
    let marker := "--?".toList
    let names : Declaration := ⟨"names".toList, .array .str,
      some (.array .str [.str "it's // ]".toList, .str ['\\']]), "--? a: str".toList, 0⟩
    let order : Declaration := ⟨"by".toList, .scalar .raw, some (.scalar (.raw "n // = [".toList)),
      "// = #".toList, 0⟩
    let limit : Declaration := ⟨"limit".toList, .scalar .num, none, "rows".toList, 0⟩
    let body := "\n--? a: str\nselect @a".toList
    text marker [names, order, limit] =
        ("--? names: [str] = ['it\\'s // ]', '\\\\'] // --? a: str\n" ++
          "--? by: raw = #n // = [# // // = #\n--? limit: num // rows\n").toList ∧
      ∃ found, read marker (text marker [names, order, limit] ++ body) = .ok ⟨found, body⟩ ∧
        List.Forall₂ Declaration.Agrees found [names, order, limit] ∧
        found.map Declaration.order = List.range 3 := by
  intro marker names order limit body
  have names' : names.Printable := by
    refine ⟨rfl, ?_, ?_, by decide, by decide +kernel, by decide⟩
    · exact fun value given => Option.some.inj given ▸ rfl
    · intro value given
      rw [← Option.some.inj given]
      refine Value.survives_of_representable ?_
      simp [Value.Representable, Scalar.Representable, Scalar.base, Text.OneLine, Text.isLineEnd]
  have order' : order.Printable := by
    refine ⟨rfl, ?_, ?_, by decide, by decide +kernel, by decide⟩
    · exact fun value given => Option.some.inj given ▸ rfl
    · intro value given
      rw [← Option.some.inj given]
      refine Value.survives_of_representable ?_
      simp [Value.Representable, Scalar.Representable, Text.isLineEnd]
  have limit' : limit.Printable :=
    ⟨rfl, by rintro _ ⟨⟩, by rintro _ ⟨⟩, by decide, by decide +kernel, by decide⟩
  have printable := List.forall_mem_cons.mpr
    ⟨names', List.forall_mem_cons.mpr ⟨order', List.forall_mem_singleton.mpr limit'⟩⟩
  exact ⟨by decide +kernel, read_printed (by decide) printable (by decide) (by rfl)⟩

end Header
end TypedQuery
