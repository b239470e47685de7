import TypedQuery.Proofs.HeaderLines

/-!
# The grammar of declarations

A line that opens as a declaration goes on after the colon with a type, with a default where an
equals sign stands, and with a help text or with white space alone (`Declaration.Says`). The grammar
is put together from the parts, and says nothing about how a line is read.

Each part has a reader, and a reader takes just the texts of its part from the front of an input
(`Declaration.readType_eq_ok_iff`, `Declaration.writesDefault_of_readDefault`,
`Declaration.readDefault_of_writesDefault`, `Declaration.readHelp_eq_ok_iff`). A keyword and a
number are read as far as they go, which does no harm: what may follow them in a declaration
continues neither. So a line declares a parameter exactly if it follows the grammar as a whole
(`Declaration.declares_iff_spells`), and any other line that opens as a declaration is refused,
below whichever header it stands (`Header.judges_line`).
-/

set_option autoImplicit false

namespace TypedQuery

/-! ## Literals without blanks around them -/

namespace Literal

theorem WritesItem.stops_reverse {text : Text} {item : Scalar} (writes : WritesItem text item) :
    Text.Stops Text.isBlank text.reverse := by
  cases writes with
  | @str quote units _ isQuote _ =>
      have noBlank : Text.isBlank quote = false := by rcases isQuote with rfl | rfl <;> rfl
      have reversed : (quote :: (units ++ [quote])).reverse =
          quote :: (quote :: units).reverse := by simp
      rw [reversed]
      exact Text.stops_cons noBlank _
  | @raw text _ =>
      have reversed : ('#' :: (text ++ ['#'])).reverse = '#' :: ('#' :: text).reverse := by simp
      rw [reversed]
      exact Text.stops_cons rfl _
  | num writes =>
      intro c last
      have member := List.mem_reverse.mp (List.mem_of_head? last)
      exact Text.isBlank_eq_false (isSpace_of_isNumberChar (isNumberChar_of_writes writes c member))

/-- A literal does not end with a blank. -/
theorem Writes.stops_reverse {type : ParamType} {text : Text} {value : Value}
    (writes : Writes type text value) : Text.Stops Text.isBlank text.reverse := by
  have bracket (inner : Text) : Text.Stops Text.isBlank ('[' :: (inner ++ [']'])).reverse := by
    have reversed : ('[' :: (inner ++ [']'])).reverse = ']' :: ('[' :: inner).reverse := by simp
    rw [reversed]
    exact Text.stops_cons rfl _
  cases writes with
  | scalar writes => exact writes.stops_reverse
  | empty _ _ => exact bracket _
  | @items _ before text after _ _ _ _ =>
      have parts : before ++ (text ++ (after ++ [']'])) = before ++ (text ++ after) ++ [']'] := by
        simp
      rw [parts]
      exact bracket _

/-- A text without blanks around it has a value exactly if the grammar writes the value. -/
theorem writes_iff_parse {type : ParamType} {text : Text} {value : Value} :
    Writes type text value ↔ parse type text = .ok value ∧ Text.Stops Text.isBlank text ∧
      Text.Stops Text.isBlank text.reverse := by
  constructor
  · intro writes
    have parsed := parse_of_writes Text.blanks_nil writes Text.blanks_nil
    have front := writes.stops []
    rw [List.append_nil] at front
    rw [List.nil_append, List.append_nil] at parsed
    exact ⟨parsed, front, writes.stops_reverse⟩
  · rintro ⟨parsed, front, back⟩
    obtain ⟨before, literal, after, blank, writes, blank', rfl⟩ := writes_of_parse parsed
    have reversed : (before ++ (literal ++ after)).reverse =
        after.reverse ++ (before ++ literal).reverse := by simp
    rw [reversed] at back
    have blankReversed : Text.Blanks after.reverse :=
      fun c member => blank' c (List.mem_reverse.mp member)
    rw [blank.eq_nil front, List.reverse_eq_nil_iff.mp (blankReversed.eq_nil back),
      List.nil_append, List.append_nil]
    exact writes

end Literal

/-- A keyword is a name. -/
theorem BaseType.isName_keyword (base : BaseType) : Text.isName base.keyword = true := by
  cases base <;> rfl

namespace Declaration

/-! ## The grammar -/

/-- A text is written for a type: a keyword, or a keyword between brackets with blanks around it at
most. -/
inductive WritesType : Text → ParamType → Prop
  | scalar (base : BaseType) : WritesType base.keyword (.scalar base)
  | array (base : BaseType) {before after : Text} (blank : Text.Blanks before)
      (blank' : Text.Blanks after) :
      WritesType ('[' :: (before ++ (base.keyword ++ (after ++ [']'])))) (.array base)

/-- A text is written for a default of a type, or for none: an equals sign and a literal of the type
with blanks around it at most, or nothing. -/
inductive WritesDefault (type : ParamType) : Text → Option Value → Prop
  | absent : WritesDefault type [] none
  | present {before literal after : Text} {value : Value} (blank : Text.Blanks before)
      (parsed : Literal.parse type literal = .ok value) (front : Text.Stops Text.isBlank literal)
      (back : Text.Stops Text.isBlank literal.reverse) (blank' : Text.Blanks after) :
      WritesDefault type ('=' :: (before ++ (literal ++ after))) (some value)

/-- A text is written for the help text of a parameter: two slashes and any text, which is trimmed
and is the name if nothing is left of it, or white space alone, which is the name. -/
inductive WritesHelp (name : Text) : Text → Text → Prop
  | note (note : Text) : WritesHelp name ('/' :: '/' :: note)
      (if Text.strip note = [] then name else Text.strip note)
  | none {spaces : Text} (space : ∀ c ∈ spaces, Text.isSpace c = true) : WritesHelp name spaces name

/-- What a line says after its colon of the parameter that it declares. -/
inductive Says (name : Text) (order : Nat) : Text → Declaration → Prop
  | intro {before typeText between defaultText helpText : Text} {type : ParamType}
      {default : Option Value} {help : Text} (blank : Text.Blanks before)
      (typed : WritesType typeText type) (blank' : Text.Blanks between)
      (given : WritesDefault type defaultText default) (helped : WritesHelp name helpText help) :
      Says name order (before ++ (typeText ++ (between ++ (defaultText ++ helpText))))
        ⟨name, type, default, help, order⟩

/-! ## The type -/

theorem readBase_eq_ok_iff {input rest : Text} {base : BaseType} :
    readBase input = .ok (base, rest) ↔ input = base.keyword ++ rest ∧ rest.EndsName := by
  constructor
  · intro taken
    unfold readBase at taken
    cases named : Text.readName? input with
    | none =>
        simp only [named, Option.getD_none] at taken
        split at taken
        · next found known =>
            -- no keyword is as short as the one character that is taken then
            have short := List.length_take_le 1 input
            rw [(BaseType.ofKeyword?_eq_some_iff _ _).mp known] at short
            cases found <;> exact absurd short (by decide)
        · cases taken
    | some parts =>
        obtain ⟨keyword, after⟩ := parts
        simp only [named, Option.getD_some] at taken
        split at taken
        · next found known =>
            obtain ⟨rfl, rfl⟩ := Prod.mk.inj (Except.ok.inj taken)
            rw [← (BaseType.ofKeyword?_eq_some_iff _ _).mp known]
            exact ⟨(Text.isName_of_readName? named).2, Text.endsName_of_readName? named⟩
        · cases taken
  · rintro ⟨rfl, ends⟩
    have known := (BaseType.ofKeyword?_eq_some_iff base.keyword base).mpr rfl
    simp only [readBase, Text.readName?_append base.isName_keyword ends, Option.getD_some, known]

/-- A type starts with no blank. -/
theorem WritesType.stops {text : Text} {type : ParamType} (typed : WritesType text type)
    (rest : Text) : Text.Stops Text.isBlank (text ++ rest) := by
  cases typed with
  | scalar base => exact Text.stops_isBlank_of_isName base.isName_keyword rest
  | array => exact Text.stops_cons rfl _

/-- **A type is read from the front of an input exactly where it is written there** and no keyword
goes on. -/
theorem readType_eq_ok_iff {input rest : Text} {type : ParamType} :
    readType input = .ok (type, rest) ↔ ∃ text, WritesType text type ∧ input = text ++ rest ∧
      (type.isArray = false → rest.EndsName) := by
  constructor
  · intro taken
    unfold readType at taken
    split at taken
    · next inner =>
        split at taken
        · cases taken
        · split at taken
          · cases taken
          · next base last first =>
              split at taken
              · next closing =>
                  obtain ⟨rfl, rfl⟩ := Prod.mk.inj (Except.ok.inj taken)
                  obtain ⟨before, blank, front⟩ := Text.exists_blanks inner
                  obtain ⟨after, blank', back⟩ := Text.exists_blanks last
                  rw [closing] at back
                  rw [(readBase_eq_ok_iff.mp first).1, back] at front
                  refine ⟨_, .array base blank blank', ?_, fun isScalar => by cases isScalar⟩
                  rw [front]
                  simp
              · cases taken
    · obtain ⟨⟨base, last⟩, first, same⟩ := map_eq_ok_iff.mp taken
      obtain ⟨rfl, rfl⟩ := Prod.mk.inj same
      obtain ⟨whole, ends⟩ := readBase_eq_ok_iff.mp first
      exact ⟨_, .scalar base, whole, fun _ => ends⟩
  · rintro ⟨text, typed, rfl, ends⟩
    cases typed with
    | scalar base =>
        have first : readBase (base.keyword ++ rest) = .ok (base, rest) :=
          readBase_eq_ok_iff.mpr ⟨rfl, ends rfl⟩
        cases base <;> exact congrArg (Except.map _) first
    | @array base before after blank blank' =>
        have closes : Text.Stops Text.isBlank (']' :: rest) := Text.stops_cons rfl rest
        have ends' : Text.EndsName (after ++ ']' :: rest) :=
          Text.Stops.blanks (fun _ => Text.isNameChar_of_isSpace) blank' (Text.stops_cons rfl rest)
        have parts : '[' :: (before ++ (base.keyword ++ (after ++ [']']))) ++ rest =
            '[' :: (before ++ (base.keyword ++ (after ++ ']' :: rest))) := by simp
        have inside := Text.dropBlanks_append blank
          (Text.stops_isBlank_of_isName base.isName_keyword (after ++ ']' :: rest))
        rw [parts, readType, inside]
        -- a keyword opens no array in the array
        split
        · next nested => cases base <;> cases nested
        · rw [readBase_eq_ok_iff.mpr ⟨rfl, ends'⟩]
          simp only [Text.dropBlanks_append blank' closes]

/-! ## The default and the help text -/

/-- **What is read as a default is written there**, with blanks around it at most. -/
theorem writesDefault_of_readDefault {type : ParamType} {input rest : Text}
    {default : Option Value}
    (taken : readDefault type (Text.dropBlanks input) = .ok (default, rest)) :
    ∃ between text, Text.Blanks between ∧ WritesDefault type text default ∧
      input = between ++ (text ++ Text.dropBlanks rest) := by
  obtain ⟨between, blank, front⟩ := Text.exists_blanks input
  obtain ⟨after, blank', back⟩ := Text.exists_blanks rest
  unfold readDefault at taken
  split at taken
  · next inner opened =>
      split at taken
      · next value last read =>
          obtain ⟨rfl, rfl⟩ := Prod.mk.inj (Except.ok.inj taken)
          obtain ⟨literal, writes, inside⟩ := Literal.writes_of_read read
          obtain ⟨before, blank'', next⟩ := Text.exists_blanks inner
          obtain ⟨parsed, first, final⟩ := Literal.writes_iff_parse.mp writes
          refine ⟨between, _, blank, .present blank'' parsed first final blank', ?_⟩
          rw [opened, next, inside, back] at front
          rw [front]
          simp
      · cases taken
  · obtain ⟨rfl, rfl⟩ := Prod.mk.inj (Except.ok.inj taken)
    refine ⟨between ++ after, [], List.forall_mem_append.mpr ⟨blank, blank'⟩, .absent, ?_⟩
    rw [List.nil_append, List.append_assoc, ← back, ← front]

/-- **A default that is written is read**, in front of anything that starts no default and does not
continue a number. -/
theorem readDefault_of_writesDefault {type : ParamType} {text rest : Text}
    {default : Option Value} (given : WritesDefault type text default)
    (ends : Text.Stops Literal.isNumberChar rest)
    (other : (Text.dropBlanks rest).head? ≠ some '=') :
    ∃ after, readDefault type (Text.dropBlanks (text ++ rest)) = .ok (default, after) ∧
      Text.dropBlanks after = Text.dropBlanks rest := by
  cases given with
  | absent =>
      refine ⟨Text.dropBlanks rest, ?_, Text.dropBlanks_of_stops (Text.stops_dropWhile _ rest)⟩
      unfold readDefault
      split
      · next opened => exact absurd (congrArg List.head? opened) other
      · rfl
  | @present before literal after value blank parsed first final blank' =>
      have writes := Literal.writes_iff_parse.mpr ⟨parsed, first, final⟩
      have opened : Text.dropBlanks ('=' :: (before ++ (literal ++ after)) ++ rest) =
          '=' :: (before ++ (literal ++ (after ++ rest))) := by
        have parts : '=' :: (before ++ (literal ++ after)) ++ rest =
            '=' :: (before ++ (literal ++ (after ++ rest))) := by simp
        rw [parts, Text.dropBlanks_of_stops (Text.stops_cons rfl _)]
      have next := Text.dropBlanks_append blank (writes.stops (after ++ rest))
      have read := Literal.read_of_writes writes fun _ => Literal.stops_isNumberChar blank' ends
      refine ⟨after ++ rest, ?_, Text.dropBlanks_blanks blank' rest⟩
      rw [opened, readDefault, next, read]

/-- **A help text is read exactly where it is written.** -/
theorem readHelp_eq_ok_iff {name input help : Text} :
    readHelp name input = .ok help ↔ WritesHelp name input help := by
  constructor
  · intro taken
    unfold readHelp at taken
    split at taken
    · next note =>
        obtain rfl := Except.ok.inj taken
        exact .note note
    · split at taken
      · next space =>
          obtain rfl := Except.ok.inj taken
          exact .none (List.all_eq_true.mp space)
      · cases taken
  · intro helped
    cases helped with
    | note note => rfl
    | none space =>
        unfold readHelp
        split
        · cases space '/' List.mem_cons_self
        · rw [if_pos (List.all_eq_true.mpr space)]

/-- A help text starts with a slash or with white space, if it is not empty. -/
theorem WritesHelp.stops {name text help : Text} (helped : WritesHelp name text help)
    {p : Char → Bool} (slash : p '/' = false) (noSpace : ∀ c, Text.isSpace c = true → p c = false) :
    Text.Stops p text := by
  cases helped with
  | note note => exact Text.stops_cons slash _
  | none space => exact fun c first => noSpace c (space c (List.mem_of_mem_head? first))

/-- A help text does not start as a default does. -/
theorem WritesHelp.head?_ne {name text help : Text} (helped : WritesHelp name text help) :
    text.head? ≠ some '=' := by
  intro starts
  cases helped with
  | note note => cases starts
  | none space => cases space '=' (List.mem_of_mem_head? starts)

theorem WritesHelp.dropBlanks {name text help : Text} (helped : WritesHelp name text help) :
    WritesHelp name (Text.dropBlanks text) help := by
  cases helped with
  | note note => exact .note note
  | none space => exact .none fun c member => space c ((List.dropWhile_suffix _).mem member)

/-! ## The whole declaration -/

/-- **What follows the colon of a line is read exactly if the grammar says something of it.** -/
theorem read_dropBlanks_eq_ok_iff {name tail : Text} {order : Nat} {declaration : Declaration} :
    read name order (Text.dropBlanks tail) = .ok declaration ↔
      Says name order tail declaration := by
  constructor
  · intro taken
    obtain ⟨type, rest, default, after, help, first, second, third, rfl⟩ :=
      read_eq_ok_iff.mp taken
    obtain ⟨before, blank, front⟩ := Text.exists_blanks tail
    obtain ⟨typeText, typed, whole, _⟩ := readType_eq_ok_iff.mp first
    obtain ⟨between, defaultText, blank', given, back⟩ := writesDefault_of_readDefault second
    rw [front, whole, back]
    exact .intro blank typed blank' given (readHelp_eq_ok_iff.mp third)
  · intro stated
    cases stated with
    | @intro before typeText between defaultText helpText type default help blank typed blank' given
        helped =>
        have follows : Text.Stops Text.isNameChar (defaultText ++ helpText) := by
          cases given with
          | absent => exact helped.stops rfl fun _ => Text.isNameChar_of_isSpace
          | present => exact Text.stops_cons rfl _
        have ends : Text.EndsName (between ++ (defaultText ++ helpText)) :=
          follows.blanks (fun _ => Text.isNameChar_of_isSpace) blank'
        obtain ⟨after, second, dropped⟩ := readDefault_of_writesDefault given
          (helped.stops rfl fun c space => by simp [Literal.isNumberChar, space])
          helped.dropBlanks.head?_ne
        refine read_eq_ok_iff.mpr ⟨type, between ++ (defaultText ++ helpText), default, after, help,
          ?_, ?_, ?_, rfl⟩
        · rw [Text.dropBlanks_append blank (typed.stops _)]
          exact readType_eq_ok_iff.mpr ⟨typeText, typed, rfl, fun _ => ends⟩
        · rw [Text.dropBlanks_blanks blank', second]
        · rw [dropped]
          exact readHelp_eq_ok_iff.mpr helped.dropBlanks

/-! ## Whole lines -/

/-- A line opens as the declaration of a name, and goes on with a tail after the colon. -/
def OpensAs (marker line name tail : Text) : Prop :=
  ∃ before after, Text.Blanks before ∧ Text.isName name = true ∧ Text.Blanks after ∧
    line = marker ++ (before ++ (name ++ (after ++ ':' :: tail)))

theorem OpensAs.opening?_eq {marker line name tail : Text} (opens : OpensAs marker line name tail) :
    opening? marker line = some (name, Text.dropBlanks tail) := by
  obtain ⟨before, after, blank, named, blank', parts⟩ := opens
  exact opening?_eq_some_iff.mpr ⟨before, after, tail, blank, named, blank', parts, rfl⟩

theorem exists_opensAs {marker line name rest : Text}
    (opened : opening? marker line = some (name, rest)) :
    ∃ tail, OpensAs marker line name tail ∧ rest = Text.dropBlanks tail := by
  obtain ⟨before, after, tail, blank, named, blank', parts, same⟩ := opening?_eq_some_iff.mp opened
  exact ⟨tail, ⟨before, after, blank, named, blank', parts⟩, same⟩

/-- A line, without the line ends that close it, follows the grammar of declarations. -/
def Spells (marker line : Text) (declaration : Declaration) : Prop :=
  ∃ tail, OpensAs marker (Text.chomp line) declaration.name tail ∧
    Says declaration.name declaration.order tail declaration

/-- A line declares a parameter exactly if the grammar says so. -/
theorem declares_iff_spells {marker line : Text} {declaration : Declaration} :
    Declares marker line declaration ↔ Spells marker line declaration := by
  constructor
  · rintro ⟨rest, opened, taken⟩
    obtain ⟨tail, opens, rfl⟩ := exists_opensAs opened
    exact ⟨tail, opens, read_dropBlanks_eq_ok_iff.mp taken⟩
  · rintro ⟨tail, opens, stated⟩
    exact ⟨Text.dropBlanks tail, opens.opening?_eq, read_dropBlanks_eq_ok_iff.mpr stated⟩

end Declaration

/-! ## Lines of a header -/

namespace Header

open Declaration

/-- What a line that opens as the declaration of a name declares below some names. -/
theorem declare_eq_ok_iff_of_opens {marker line name tail : Text} {above : List Text}
    {declaration : Declaration}
    (opens : opening? marker line = some (name, Text.dropBlanks tail)) :
    declare marker above line = some (.ok declaration) ↔
      Says name above.length tail declaration ∧ name ∉ above := by
  rw [← read_dropBlanks_eq_ok_iff]
  cases taken : Declaration.read name above.length (Text.dropBlanks tail) with
  | error fault => simp [declare, opens, taken]
  | ok found =>
      by_cases old : name ∈ above
      · simp [declare, opens, taken, old]
      · simp [declare, opens, taken, old]

/-- The lines of a text that is a header and no more declare its parameters. -/
theorem declared_lines_of_read {marker above : Text} {declarations : List Declaration}
    (header : read marker above = .ok ⟨declarations, []⟩) :
    Declared marker [] (Text.lines above) declarations := by
  obtain ⟨earlier, later, cut, declared, body, _⟩ := ofLines_eq_ok_iff.mp header
  have none : later = [] := by
    rw [← Text.lines_flatten_append cut, ← body]
    rfl
  rw [cut, none, List.append_nil]
  exact declared

/-- A line that opens as the declaration of a name is judged by the grammar where it stands below a
header: it is accepted with what the grammar says of it, or refused whatever follows it. So it never
ends the header. -/
structure JudgesLine (marker above : Text) (declarations : List Declaration)
    (name tail line : Text) : Prop where
  accepted : ∀ declaration,
    read marker (above ++ line) = .ok ⟨declarations ++ [declaration], []⟩ ↔
      Says name declarations.length tail declaration ∧
        name ∉ declarations.map Declaration.name
  refused : (∀ declaration, Says name declarations.length tail declaration →
      name ∈ declarations.map Declaration.name) →
    ∃ error, read marker (above ++ line) = .error error ∧
      ∀ rest, read marker (above ++ (line ++ '\n' :: rest)) = .error error

/-- **A line that opens as a declaration is accepted exactly if it follows the grammar**, below any
header that does not declare its name, and is refused otherwise, whatever follows it. -/
theorem judges_line {marker above : Text} {declarations : List Declaration}
    (ended : above = [] ∨ above.getLast? = some '\n')
    (header : read marker above = .ok ⟨declarations, []⟩)
    {line before name after tail : Text}
    (parts : line = marker ++ (before ++ (name ++ (after ++ ':' :: tail))))
    (blank : Text.Blanks before) (named : Text.isName name = true) (blank' : Text.Blanks after)
    (inLine : '\n' ∉ line) (noReturn : line.getLast? ≠ some '\r') :
    JudgesLine marker above declarations name tail line := by
  have opens : opening? marker line = some (name, Text.dropBlanks tail) :=
    opening?_eq_some_iff.mpr ⟨before, after, tail, blank, named, blank', parts, rfl⟩
  have whole : Text.chomp line = line := Text.chomp_of_getLast? inLine noReturn
  have whole' : Text.chomp (line ++ ['\n']) = line := by
    rw [Text.chomp_append_newline, whole]
  have alone : Text.lines (above ++ line) = Text.lines above ++ [line] := by
    have some : line ≠ [] := by simp [parts]
    rw [Text.lines_append_of_getLast? ended, Text.lines_of_not_mem some inLine]
  have followed (rest : Text) : Text.lines (above ++ (line ++ '\n' :: rest)) =
      Text.lines above ++ (line ++ ['\n']) :: Text.lines rest := by
    rw [Text.lines_append_of_getLast? ended, Text.lines_append inLine]
  have below := (declared_lines_of_read header).ofLines_append
  rw [List.nil_append] at below
  have judge (declaration : Declaration) :
      declare marker (declarations.map Declaration.name) line = some (.ok declaration) ↔
        Says name declarations.length tail declaration ∧
          name ∉ declarations.map Declaration.name := by
    rw [declare_eq_ok_iff_of_opens opens, List.length_map]
  obtain ⟨outcome, judged⟩ : ∃ outcome,
      declare marker (declarations.map Declaration.name) line = some outcome :=
    ⟨_, Option.map_eq_some_iff.mpr ⟨_, opens, rfl⟩⟩
  cases outcome with
  | error error =>
      have refused (first : Text) (later : List Text) (same : Text.chomp first = line) :
          ofLines marker [] (Text.lines above ++ first :: later) = .error error := by
        rw [below, ofLines, same, judged]
        rfl
      have failed : read marker (above ++ line) = .error error := by
        rw [read, alone, refused line [] whole]
      constructor
      · intro declaration
        rw [← judge, judged, failed]
        simp
      · refine fun _ => ⟨error, failed, fun rest => ?_⟩
        rw [read, followed, refused _ _ whole']
  | ok found =>
      have taken : read marker (above ++ line) = .ok ⟨declarations ++ [found], []⟩ := by
        rw [read, alone, below, ofLines, whole, judged]
        rfl
      constructor
      · intro declaration
        rw [← judge, judged, taken]
        simp
      · obtain ⟨stated, new⟩ := (judge found).mp judged
        exact fun none => absurd (none found stated) new

/-- Blanks between all the parts, and slashes in the default and in the help text. -/
theorem judges_line_slashes :
    let marker := "--?".toList
    let above := "--? limit: num\n".toList
    let limit : Declaration := ⟨"limit".toList, .scalar .num, none, "limit".toList, 0⟩
    let tail := " [ str ]\t= ['a // b', \"\"]// c // d ".toList
    let line := "--? names :".toList ++ tail
    let names : Declaration := ⟨"names".toList, .array .str,
      some (.array .str [.str "a // b".toList, .str []]), "c // d".toList, 1⟩
    read marker above = .ok ⟨[limit], []⟩ ∧
      JudgesLine marker above [limit] "names".toList tail line ∧
      read marker (above ++ line) = .ok ⟨[limit, names], []⟩ := by
  intro marker above limit tail line names
  have header : read marker above = .ok ⟨[limit], []⟩ := by decide +kernel
  refine ⟨header, ?_, by decide +kernel⟩
  have parts : line = marker ++ ([' '] ++ ("names".toList ++ ([' '] ++ ':' :: tail))) := by decide
  exact judges_line (.inr rfl) header parts Text.blanks_space rfl Text.blanks_space (by decide)
    (by decide)

end Header
end TypedQuery
