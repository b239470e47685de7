import TypedQuery.Proofs.DeclarationGrammar
import TypedQuery.Proofs.LiteralOffsets
import TypedQuery.Proofs.Reordering

/-!
# The first faulty line of a header

A header is read line by line, and the first line that opens as a declaration and cannot be accepted
decides the error. The lines above it follow the grammar and declare different names; the line
itself does not follow the grammar, or it repeats a name (`Header.FirstFault`). A text has a header
exactly if it has no such line.

The error tells where the fault is (`Header.Blames`). An error of a declaration has the number of
the line and the name on it. An error of a literal has the line for its text, and lies between the
start of the default and the end of the line: it is the error of the literal that should stand there
(`Header.DefaultFails`). Where that literal is of another form than the type asks for, the error is
one of the declaration and has the literal's error as its cause. A name that is repeated is only
found out on a line that follows the grammar.

Neither the lines above, apart from their number and names, nor anything below has a part in it
(`Header.fails_at_first_fault`).
-/

set_option autoImplicit false

namespace TypedQuery

namespace Declaration

/-! ## What is wrong after the colon -/

/-- What follows the colon of a line starts a default of a type: the type, an equals sign, and an
input whose front should be the literal, with blanks between them. -/
inductive StartsDefault : Text → ParamType → Text → Prop
  | intro {before typeText between blanks input : Text} {type : ParamType}
      (blank : Text.Blanks before) (typed : WritesType typeText type) (blank' : Text.Blanks between)
      (blank'' : Text.Blanks blanks) (front : Text.Stops Text.isBlank input) :
      StartsDefault (before ++ (typeText ++ (between ++ '=' :: (blanks ++ input)))) type input

/-- A fault of the form of a declaration, not of its default. -/
def Fault.OfForm (fault : Fault) : Prop := ∀ literal, fault ≠ .badDefault literal

theorem ofForm_of_readBase {input : Text} {fault : Fault}
    (failed : readBase input = .error fault) : fault.OfForm := by
  unfold readBase at failed
  split at failed
  split at failed
  · cases failed
  · obtain rfl := Except.error.inj failed
    exact fun _ => Fault.noConfusion

theorem ofForm_of_readType {input : Text} {fault : Fault}
    (failed : readType input = .error fault) : fault.OfForm := by
  unfold readType at failed
  split at failed
  · split at failed
    · obtain rfl := Except.error.inj failed
      exact fun _ => Fault.noConfusion
    · split at failed
      · next other first =>
          obtain rfl := Except.error.inj failed
          exact ofForm_of_readBase first
      · split at failed
        · cases failed
        · obtain rfl := Except.error.inj failed
          exact fun _ => Fault.noConfusion
  · exact ofForm_of_readBase (map_eq_error_iff.mp failed)

theorem ofForm_of_readHelp {name input : Text} {fault : Fault}
    (failed : readHelp name input = .error fault) : fault.OfForm := by
  unfold readHelp at failed
  split at failed
  · cases failed
  · split at failed
    · cases failed
    · obtain rfl := Except.error.inj failed
      exact fun _ => Fault.noConfusion

/-- A default that is at fault starts with an equals sign, and no literal of its type follows. -/
theorem readDefault_eq_error_iff {type : ParamType} {input : Text} {fault : Fault} :
    readDefault type input = .error fault ↔ ∃ rest literal, input = '=' :: rest ∧
      Literal.read type (Text.dropBlanks rest) = .error literal ∧ fault = .badDefault literal := by
  constructor
  · intro failed
    unfold readDefault at failed
    split at failed
    · next rest =>
        split at failed
        · cases failed
        · next literal refused =>
            exact ⟨rest, literal, rfl, refused, (Except.error.inj failed).symm⟩
    · cases failed
  · rintro ⟨rest, literal, rfl, refused, rfl⟩
    rw [readDefault, refused]

/-- A declaration is at fault in one of its three parts. -/
theorem read_eq_error_iff {name input : Text} {order : Nat} {fault : Fault} :
    read name order input = .error fault ↔ readType input = .error fault ∨
      ∃ type rest, readType input = .ok (type, rest) ∧
        (readDefault type (Text.dropBlanks rest) = .error fault ∨
          ∃ default after, readDefault type (Text.dropBlanks rest) = .ok (default, after) ∧
            readHelp name (Text.dropBlanks after) = .error fault) := by
  simp only [read, bind, Except.bind, pure, Except.pure]
  cases first : readType input with
  | error other => simp
  | ok typed =>
      obtain ⟨type, rest⟩ := typed
      cases second : readDefault type (Text.dropBlanks rest) with
      | error other => simp [second]
      | ok given =>
          obtain ⟨default, after⟩ := given
          cases third : readHelp name (Text.dropBlanks after) <;> simp [second, third]

/-- **The default of a declaration is at fault exactly where the literal that it starts is.** -/
theorem read_eq_badDefault_iff {name tail : Text} {order : Nat} {literal : Literal.Fault} :
    read name order (Text.dropBlanks tail) = .error (.badDefault literal) ↔
      ∃ type input, StartsDefault tail type input ∧ Literal.read type input = .error literal := by
  rw [read_eq_error_iff]
  constructor
  · rintro (first | ⟨type, rest, first, second | ⟨_, _, _, third⟩⟩)
    · exact absurd rfl (ofForm_of_readType first literal)
    · obtain ⟨inner, found, opened, refused, same⟩ := readDefault_eq_error_iff.mp second
      obtain rfl := Fault.badDefault.inj same
      obtain ⟨before, blank, front⟩ := Text.exists_blanks tail
      obtain ⟨typeText, typed, whole, _⟩ := readType_eq_ok_iff.mp first
      obtain ⟨between, blank', back⟩ := Text.exists_blanks rest
      obtain ⟨blanks, blank'', next⟩ := Text.exists_blanks inner
      have parts : tail =
          before ++ (typeText ++ (between ++ '=' :: (blanks ++ Text.dropBlanks inner))) := by
        rw [front, whole, back, opened, ← next]
      refine ⟨type, Text.dropBlanks inner, ?_, refused⟩
      rw [parts]
      exact .intro blank typed blank' blank'' (Text.stops_dropWhile Text.isBlank inner)
    · exact absurd rfl (ofForm_of_readHelp third literal)
  · rintro ⟨type, input, starts, refused⟩
    cases starts with
    | @intro before typeText between blanks _ _ blank typed blank' blank'' front =>
        have equals (rest : Text) : Text.Stops Text.isBlank ('=' :: rest) := Text.stops_cons rfl rest
        have ends : Text.EndsName (between ++ '=' :: (blanks ++ input)) :=
          Text.Stops.blanks (fun _ => Text.isNameChar_of_isSpace) blank' (Text.stops_cons rfl _)
        refine .inr ⟨type, between ++ '=' :: (blanks ++ input), ?_, .inl ?_⟩
        · rw [Text.dropBlanks_append blank (typed.stops _)]
          exact readType_eq_ok_iff.mpr ⟨typeText, typed, rfl, fun _ => ends⟩
        · rw [Text.dropBlanks_append blank' (equals _)]
          refine readDefault_eq_error_iff.mpr ⟨_, literal, rfl, ?_, rfl⟩
          rw [Text.dropBlanks_append blank'' front, refused]

/-- The input of a default is an end of what follows the colon. -/
theorem StartsDefault.suffix {tail input : Text} {type : ParamType}
    (starts : StartsDefault tail type input) : input <:+ tail := by
  cases starts with
  | @intro before typeText between blanks =>
      exact ⟨before ++ (typeText ++ (between ++ '=' :: blanks)), by simp⟩

theorem OpensAs.suffix {marker line name tail : Text} (opens : OpensAs marker line name tail) :
    tail <:+ line := by
  obtain ⟨before, after, _, _, _, rfl⟩ := opens
  exact ⟨marker ++ (before ++ (name ++ (after ++ [':']))), by simp⟩

end Declaration

namespace Header

open Declaration

/-! ## Lines at fault -/

/-- A header fails below some lines that declare parameters, at a line that is refused. -/
theorem ofLines_eq_error_iff {marker : Text} {above lines : List Text} {error : Error} :
    ofLines marker above lines = .error error ↔ ∃ earlier line later declarations,
      lines = earlier ++ line :: later ∧ Declared marker above earlier declarations ∧
      declare marker (above ++ declarations.map Declaration.name) (Text.chomp line) =
        some (.error error) := by
  constructor
  · intro failed
    induction lines generalizing above with
    | nil => cases failed
    | cons line later ih =>
        unfold ofLines at failed
        split at failed
        · cases failed
        · next refused =>
            obtain rfl := Except.error.inj failed
            refine ⟨[], line, later, [], rfl, .nil, ?_⟩
            rw [List.map_nil, List.append_nil, refused]
        · next declaration declared =>
            obtain ⟨declares, order, new⟩ := declare_eq_ok_iff.mp declared
            obtain ⟨earlier, last, rest, declarations, cut, below, refused⟩ :=
              ih (map_eq_error_iff.mp failed)
            refine ⟨line :: earlier, last, rest, declaration :: declarations,
              congrArg (line :: ·) cut, .cons declares order new below, ?_⟩
            rwa [List.map_cons, List.append_cons]
  · rintro ⟨earlier, line, later, declarations, rfl, declared, refused⟩
    rw [declared.ofLines_append, ofLines, refused]
    rfl

variable {marker line name tail : Text}

/-- A line that opens as a declaration is refused if it does not follow the grammar or repeats a
name. -/
theorem exists_declare_error_iff {above : List Text} (opens : OpensAs marker line name tail) :
    (∃ error, declare marker above line = some (.error error)) ↔
      name ∈ above ∨ ∀ declaration, ¬ Says name above.length tail declaration := by
  obtain ⟨outcome, judged⟩ : ∃ outcome, declare marker above line = some outcome :=
    ⟨_, Option.map_eq_some_iff.mpr ⟨_, opens.opening?_eq, rfl⟩⟩
  have accepted (declaration : Declaration) :
      declare marker above line = some (.ok declaration) ↔
        Says name above.length tail declaration ∧ name ∉ above :=
    declare_eq_ok_iff_of_opens opens.opening?_eq
  cases outcome with
  | error error =>
      refine iff_of_true ⟨error, judged⟩ (or_iff_not_imp_left.mpr fun new declaration stated => ?_)
      cases judged.symm.trans ((accepted declaration).mpr ⟨stated, new⟩)
  | ok declaration =>
      obtain ⟨stated, new⟩ := (accepted declaration).mp judged
      refine iff_of_false ?_ ?_
      · rintro ⟨error, refused⟩
        cases judged.symm.trans refused
      · rintro (old | none)
        · exact new old
        · exact none declaration stated

theorem declare_of_read_error {above : List Text} {fault : Fault}
    (opens : OpensAs marker line name tail)
    (failed : Declaration.read name above.length (Text.dropBlanks tail) = .error fault) :
    declare marker above line = some (.error (fault.toError name (above.length + 1) line)) := by
  simp only [declare, opens.opening?_eq, Option.map_some, failed]

/-- A line that is refused is at fault after the colon, or it repeats a name. -/
theorem cases_of_declare_error {above : List Text} {error : Error}
    (opens : OpensAs marker line name tail)
    (refused : declare marker above line = some (.error error)) :
    (∃ fault, Declaration.read name above.length (Text.dropBlanks tail) = .error fault ∧
      error = fault.toError name (above.length + 1) line) ∨
    ((∃ declaration, Says name above.length tail declaration) ∧ name ∈ above ∧
      error = .declaration ⟨.duplicate, name, above.length + 1, some line⟩) := by
  rw [declare, opens.opening?_eq] at refused
  have outcome := Option.some.inj refused
  simp only at outcome
  split at outcome
  · next fault failed => exact .inl ⟨fault, failed, (Except.error.inj outcome).symm⟩
  · next declaration taken =>
      split at outcome
      · next old =>
          exact .inr ⟨⟨declaration, read_dropBlanks_eq_ok_iff.mp taken⟩, old,
            (Except.error.inj outcome).symm⟩
      · cases outcome

/-! ## The error of a line -/

/-- The literal of a default cannot be read: with this error it is refused where the default starts
in the line, and the error lies between there and the end of the line. -/
inductive DefaultFails (line tail : Text) (error : LiteralError) : Prop
  | intro {type : ParamType} {input : Text} {start : Nat} (starts : StartsDefault tail type input)
      (there : start + input.length = line.length)
      (refused : Literal.readAt type line start = .error error) (text : error.text = line)
      (behind : start ≤ error.position) (within : error.position ≤ line.length) :
      DefaultFails line tail error

theorem defaultFails_iff {error : LiteralError} (opens : OpensAs marker line name tail)
    (order : Nat) :
    DefaultFails line tail error ↔ ∃ fault,
      Declaration.read name order (Text.dropBlanks tail) = .error (.badDefault fault) ∧
        error = fault.locate line 0 := by
  simp only [read_eq_badDefault_iff]
  constructor
  · rintro ⟨starts, there, refused, _, _, _⟩
    obtain ⟨before, rfl⟩ := starts.suffix.trans opens.suffix
    rw [List.length_append, Nat.add_right_cancel_iff] at there
    rw [there, Literal.readAt_eq_error_iff] at refused
    obtain ⟨fault, failed, same⟩ := refused
    exact ⟨fault, ⟨_, _, starts, failed⟩, same⟩
  · rintro ⟨fault, ⟨type, input, starts, failed⟩, rfl⟩
    obtain ⟨before, rfl⟩ := starts.suffix.trans opens.suffix
    obtain ⟨_, behind, within⟩ :=
      Literal.Fault.locate_of_suffix before (Literal.suffix_of_fault failed)
    exact .intro starts List.length_append.symm
      (Literal.readAt_eq_error_iff.mpr ⟨fault, failed, rfl⟩) rfl behind within

/-- What the error of a faulty line tells. A line that repeats a name follows the grammar. Otherwise
the form of the declaration is at fault, or the literal of its default, which is an error of the
declaration if the literal is of another form than the type asks for. -/
inductive Blames (line name tail : Text) (order : Nat) : Error → Prop
  | duplicate {declaration : Declaration} (stated : Says name order tail declaration) :
      Blames line name tail order (.declaration ⟨.duplicate, name, order + 1, some line⟩)
  | form {fault : DeclarationFault} (malformed : ∀ declaration, ¬ Says name order tail declaration)
      (form : fault = .malformed ∨ fault = .nestedArray ∨ ∃ keyword, fault = .unknownType keyword) :
      Blames line name tail order (.declaration ⟨fault, name, order + 1, some line⟩)
  | mismatch {cause : LiteralError} {expected : ParamType} {actual : Literal.Form}
      (malformed : ∀ declaration, ¬ Says name order tail declaration)
      (fails : DefaultFails line tail cause) (kind : cause.kind = .typeMismatch expected actual) :
      Blames line name tail order
        (.declaration ⟨.defaultMismatch cause, name, order + 1, some line⟩)
  | literal {error : LiteralError} (malformed : ∀ declaration, ¬ Says name order tail declaration)
      (fails : DefaultFails line tail error)
      (kind : ∀ expected actual, error.kind ≠ .typeMismatch expected actual) :
      Blames line name tail order (.literal error)

theorem blames_of_declare_error {above : List Text} {error : Error}
    (opens : OpensAs marker line name tail)
    (refused : declare marker above line = some (.error error)) :
    Blames line name tail above.length error := by
  rcases cases_of_declare_error opens refused with
    ⟨fault, failed, rfl⟩ | ⟨⟨declaration, stated⟩, _, rfl⟩
  · have malformed (declaration : Declaration) : ¬ Says name above.length tail declaration := by
      intro stated
      rw [← read_dropBlanks_eq_ok_iff, failed] at stated
      cases stated
    cases fault with
    | malformed => exact .form malformed (.inl rfl)
    | nestedArray => exact .form malformed (.inr (.inl rfl))
    | unknownType keyword => exact .form malformed (.inr (.inr ⟨keyword, rfl⟩))
    | badDefault literal =>
        have fails := (defaultFails_iff opens above.length).mpr ⟨literal, failed, rfl⟩
        simp only [Fault.toError]
        split
        · next kind => exact .mismatch malformed fails kind
        · next other => exact .literal malformed fails other
  · exact .duplicate stated

/-! ## The first faulty line -/

/-- A text goes wrong at a line: the lines above follow the grammar and declare different names, and
the line opens as the declaration of a name, but it repeats one of them or does not follow the
grammar. -/
structure FirstFault (marker text : Text) (earlier : List Text) (line name tail : Text) : Prop where
  cut : ∃ later, Text.lines text = earlier ++ line :: later
  opens : OpensAs marker (Text.chomp line) name tail
  fault : ∃ declarations, List.Forall₂ (Spells marker) earlier declarations ∧
    (declarations.map Declaration.name).Nodup ∧ (name ∈ declarations.map Declaration.name ∨
      ∀ declaration, ¬ Says name earlier.length tail declaration)

variable {text : Text} {earlier : List Text}

theorem Declared.length_names {above lines : List Text} {declarations : List Declaration}
    (declared : Declared marker above lines declarations) :
    (declarations.map Declaration.name).length = lines.length := by
  rw [List.length_map, declared.declares.length_eq]

/-- A text goes wrong where the lines above declare parameters and the line is refused. -/
theorem firstFault_iff :
    FirstFault marker text earlier line name tail ↔
      (∃ later, Text.lines text = earlier ++ line :: later) ∧
      OpensAs marker (Text.chomp line) name tail ∧
      ∃ declarations, Declared marker [] earlier declarations ∧ ∃ error,
        declare marker (declarations.map Declaration.name) (Text.chomp line) =
          some (.error error) := by
  constructor
  · rintro ⟨cut, opens, declarations, spelled, distinct, fault⟩
    have declares := spelled.imp fun _ _ => declares_iff_spells.mpr
    have declared := @declared_of_declares marker [] earlier declarations declares distinct
    simp only [List.length_nil, Nat.zero_add] at declared
    have length : (declarations.map Declaration.name).length = earlier.length := by
      rw [List.length_map, spelled.length_eq]
    rw [← length] at fault
    refine ⟨cut, opens, renumber declarations, declared, ?_⟩
    rw [map_name_renumber]
    exact (exists_declare_error_iff opens).mpr fault
  · rintro ⟨cut, opens, declarations, declared, refused⟩
    have fault := (exists_declare_error_iff opens).mp refused
    rw [declared.length_names] at fault
    exact ⟨cut, opens, declarations, declared.declares.imp fun _ _ => declares_iff_spells.mp,
      declared.distinct List.nodup_nil, fault⟩

/-- What stands after a line does not change the lines up to it, if a line feed ends it. -/
theorem lines_of_cut {later : List Text} (cut : Text.lines text = earlier ++ line :: later)
    (ended : line.getLast? = some '\n') (rest : Text) :
    Text.lines (earlier.flatten ++ (line ++ rest)) = earlier ++ line :: Text.lines rest := by
  have front : earlier.flatten ++ line = [] ∨ (earlier.flatten ++ line).getLast? = some '\n' := by
    rw [List.getLast?_append, ended]
    exact .inr rfl
  have cut' : Text.lines text = (earlier ++ [line]) ++ later := by rw [cut, List.append_cons]
  have whole : text = earlier.flatten ++ line ++ later.flatten := by
    rw [← Text.flatten_lines text, cut']
    simp
  have divided := Text.lines_append_of_getLast? front later.flatten
  rw [← whole, cut', Text.lines_flatten_append cut'] at divided
  rw [← List.append_assoc, Text.lines_append_of_getLast? front, ← List.append_cancel_right divided,
    List.append_assoc]
  rfl

/-- The error of a text that goes wrong at a line. -/
structure FailsAt (marker text : Text) (earlier : List Text) (line name tail : Text)
    (error : Error) : Prop where
  raised : read marker text = .error error
  blames : Blames (Text.chomp line) name tail earlier.length error
  mismatched : ∀ cause expected actual, DefaultFails (Text.chomp line) tail cause →
    cause.kind = .typeMismatch expected actual →
    error = .declaration
      ⟨.defaultMismatch cause, name, earlier.length + 1, some (Text.chomp line)⟩
  replaced : line.getLast? = some '\n' → ∀ rest,
    read marker (earlier.flatten ++ (line ++ rest)) = .error error

/-- **The first faulty line decides the error of a header.** A text has no header exactly if it goes
wrong at a line. The error then tells the number of that line and the name on it, or where in the
line a literal cannot be read, and nothing below the line has a part in it. -/
theorem fails_at_first_fault (marker text : Text) :
    ((∃ error, read marker text = .error error) ↔
      ∃ earlier line name tail, FirstFault marker text earlier line name tail) ∧
    ∀ earlier line name tail, FirstFault marker text earlier line name tail →
      ∃ error, FailsAt marker text earlier line name tail error := by
  constructor
  · constructor
    · rintro ⟨error, failed⟩
      obtain ⟨earlier, line, later, declarations, cut, declared, refused⟩ :=
        ofLines_eq_error_iff.mp failed
      obtain ⟨⟨name, rest⟩, opened, _⟩ := Option.map_eq_some_iff.mp refused
      obtain ⟨tail, opens, _⟩ := exists_opensAs opened
      exact ⟨earlier, line, name, tail,
        firstFault_iff.mpr ⟨⟨later, cut⟩, opens, declarations, declared, error, refused⟩⟩
    · rintro ⟨earlier, line, name, tail, first⟩
      obtain ⟨⟨later, cut⟩, _, declarations, declared, error, refused⟩ := firstFault_iff.mp first
      exact ⟨error, ofLines_eq_error_iff.mpr
        ⟨earlier, line, later, declarations, cut, declared, refused⟩⟩
  · intro earlier line name tail first
    obtain ⟨⟨later, cut⟩, opens, declarations, declared, error, refused⟩ := firstFault_iff.mp first
    have fails {other : Text} {below : List Text}
        (lines : Text.lines other = earlier ++ line :: below) :
        read marker other = .error error :=
      ofLines_eq_error_iff.mpr ⟨earlier, line, below, declarations, lines, declared, refused⟩
    refine ⟨error, fails cut, ?_, ?_, fun ended rest => fails (lines_of_cut cut ended rest)⟩
    · rw [← declared.length_names]
      exact blames_of_declare_error opens refused
    · intro cause expected actual wrong kind
      obtain ⟨fault, failed, rfl⟩ :=
        (defaultFails_iff opens (declarations.map Declaration.name).length).mp wrong
      have same := refused.symm.trans (declare_of_read_error opens failed)
      obtain rfl := Except.error.inj (Option.some.inj same)
      rw [declared.length_names]
      simp only [Fault.toError, show fault.kind = .typeMismatch expected actual from kind]

/-- A literal of another form, between a line that declares and one that repeats its name. -/
theorem fails_at_first_fault_item :
    let marker := "--?".toList
    let earlier := ["--? a: str = 'x'\r\n".toList]
    let line := "--? b: [str] = ['x', 2]\r\n".toList
    let later := "--? a: ?\nselect @a".toList
    let tail := " [str] = ['x', 2]".toList
    let text := earlier.flatten ++ (line ++ later)
    let cause : LiteralError :=
      ⟨.typeMismatch (.scalar .str) (.item .num), "--? b: [str] = ['x', 2]".toList, 21⟩
    let error : Error := .declaration ⟨.defaultMismatch cause, ['b'], 2, some cause.text⟩
    FirstFault marker text earlier line ['b'] tail ∧ read marker text = .error error ∧
      FailsAt marker text earlier line ['b'] tail error := by
  intro marker earlier line later tail text cause error
  let first : Declaration :=
    ⟨['a'], .scalar .str, some (.scalar (.str ['x'])), ['a'], 0⟩
  have spelled : Spells marker "--? a: str = 'x'\r\n".toList first :=
    declares_iff_spells.mp ⟨"str = 'x'".toList, by decide +kernel, by decide +kernel⟩
  have refused : Declaration.read ['b'] 1 (Text.dropBlanks tail) =
      .error (.badDefault ⟨.typeMismatch (.scalar .str) (.item .num), "2]".toList⟩) := by
    decide +kernel
  have opens : OpensAs marker (Text.chomp line) ['b'] tail :=
    ⟨[' '], [], Text.blanks_space, rfl, Text.blanks_nil, by decide⟩
  have fault : FirstFault marker text earlier line ['b'] tail := by
    refine ⟨⟨["--? a: ?\n".toList, "select @a".toList], by decide +kernel⟩, opens, [first],
      .cons spelled .nil, List.nodup_singleton _, .inr fun declaration stated => ?_⟩
    rw [← read_dropBlanks_eq_ok_iff, List.length_singleton, refused] at stated
    cases stated
  have raised : read marker text = .error error := by decide +kernel
  obtain ⟨other, fails⟩ := (fails_at_first_fault marker text).2 _ _ _ _ fault
  obtain rfl := Except.error.inj (fails.raised.symm.trans raised)
  exact ⟨fault, raised, fails⟩

end Header

end TypedQuery
