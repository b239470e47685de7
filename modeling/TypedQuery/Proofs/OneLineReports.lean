import TypedQuery.Report
import TypedQuery.Proofs.ArgumentOrder
import TypedQuery.Proofs.FaultyLines
import TypedQuery.Proofs.FirstFault
import TypedQuery.Proofs.StrictReading

/-!
# Errors are reported on one line

A report is read in a log, and whoever writes the text at fault must not be able to write a line of
that log. All that a report takes from a text or a value it shows in its display form, and that is
printable whatever it stands for (`Text.printable_display`). So a message is printable up to the
line that the settings may show at its end (`Error.message_eq`).

That line is shown as it is. It is a line of the text that was read, without the line feed that
closed it, so no line feed is in it (`Error.Raised.inLine`), though any other character may be.
Hence a message has no line feed, and it is printable where lines are not shown
(`Error.Raised.reported_on_one_line`). A log of such messages is cut into just these
(`Error.lines_log`).
-/

set_option autoImplicit false

namespace TypedQuery

/-! ## Printable texts -/

namespace Text

/-- A text of printable characters. -/
def Printable (text : Text) : Prop := ∀ c ∈ text, isPrintable c = true

theorem exists_run_of_inRuns {runs : List (Nat × Nat)} {n : Nat} (inside : inRuns runs n = true) :
    ∃ run ∈ runs, run.1 ≤ n ∧ n ≤ run.2 := by
  induction runs with
  | nil => cases inside
  | cons run later ih =>
      simp only [inRuns, Bool.and_eq_true, Bool.or_eq_true, decide_eq_true_eq] at inside
      rcases inside with ⟨start, last | below⟩
      · exact ⟨run, List.mem_cons_self, start, last⟩
      · obtain ⟨found, member, within⟩ := ih below
        exact ⟨found, List.mem_cons_of_mem run member, within⟩

/-- Runs of printable characters that the wording of reports is taken from: the visible characters
of ASCII and the space, the two syllabaries, and the ideographs. -/
def wordingRuns : List (Nat × Nat) :=
  [(0x20, 0x7E), (0x3041, 0x3096), (0x3099, 0x30FF), (0x3220, 0xA48C)]

/-- The characters of the wording are printable. -/
theorem isPrintable_of_wording {c : Char} (wording : inRuns wordingRuns c.toNat = true) :
    isPrintable c = true := by
  -- The two lists of runs are compared once, so no wording is compared with the longer one.
  have apart : ∀ run ∈ wordingRuns, ∀ other ∈ unprintableRuns,
      other.2 < run.1 ∨ run.2 < other.1 := by
    decide +kernel
  obtain ⟨run, member, start, last⟩ := exists_run_of_inRuns wording
  rw [isPrintable, Bool.not_eq_true', Bool.eq_false_iff]
  intro inside
  obtain ⟨other, member', start', last'⟩ := exists_run_of_inRuns inside
  rcases apart run member other member' with before | after <;> omega

theorem printable_of_wording {text : Text}
    (wording : (text.all fun c => inRuns wordingRuns c.toNat) = true) : Printable text :=
  fun c member => isPrintable_of_wording (List.all_eq_true.mp wording c member)

/-- A wording is judged by the characters that it is made of, without reading them back from it. -/
theorem printable_toList {chars : Text}
    (wording : (chars.all fun c => inRuns wordingRuns c.toNat) = true) :
    Printable (String.ofList chars).toList := by
  rw [String.toList_ofList]
  exact printable_of_wording wording

theorem isPrintable_of_ascii {c : Char} (first : 0x20 ≤ c.toNat) (last : c.toNat ≤ 0x7E) :
    isPrintable c = true := by
  apply isPrintable_of_wording
  simp [wordingRuns, inRuns, first, last]

theorem Printable.newline_not_mem {text : Text} (printable : Printable text) : '\n' ∉ text := by
  intro member
  have newline := printable '\n' member
  revert newline
  decide

@[simp] theorem printable_nil : Printable [] := List.forall_mem_nil _

@[simp] theorem printable_cons {c : Char} {text : Text} :
    Printable (c :: text) ↔ isPrintable c = true ∧ Printable text := List.forall_mem_cons

@[simp] theorem printable_append {front back : Text} :
    Printable (front ++ back) ↔ Printable front ∧ Printable back := List.forall_mem_append

theorem printable_join {separator : Text} {pieces : List Text} (printable : Printable separator)
    (all : ∀ piece ∈ pieces, Printable piece) : Printable (join separator pieces) := by
  induction pieces with
  | nil => exact printable_nil
  | cons piece later ih =>
      obtain ⟨here, below⟩ := List.forall_mem_cons.mp all
      cases later with
      | nil => rwa [join_singleton]
      | cons next later =>
          rw [join_cons_cons, printable_append, printable_append]
          exact ⟨here, printable, ih below⟩

theorem isPrintable_of_isDigit {c : Char} (digit : c.isDigit = true) : isPrintable c = true := by
  simp only [Char.isDigit, Bool.and_eq_true, decide_eq_true_eq] at digit
  have first : 48 ≤ c.toNat := digit.1
  have last : c.toNat ≤ 57 := digit.2
  exact isPrintable_of_ascii (by omega) (by omega)

theorem printable_ofNat (n : Nat) : Printable (ofNat n) := fun _ member =>
  isPrintable_of_isDigit (Nat.isDigit_of_mem_toDigits (by decide) (by decide) member)

theorem printable_ofInt (n : Int) : Printable (ofInt n) := by
  cases n with
  | ofNat n => exact printable_ofNat n
  | negSucc n =>
      have sign : isPrintable '-' = true := isPrintable_of_ascii (by decide) (by decide)
      exact printable_cons.mpr ⟨sign, printable_ofNat (n + 1)⟩

theorem printable_hexDigits (width n : Nat) : Printable (hexDigits width n) := by
  have each : ∀ digit < 16, isPrintable digit.digitChar = true := by decide +kernel
  intro c member
  obtain ⟨place, _, rfl⟩ := List.mem_map.mp member
  exact each _ (Nat.mod_lt _ (by decide))

theorem printable_codePointEscape (c : Char) : Printable (codePointEscape c) := by
  have letters : Printable ['\\', 'x', 'u', 'U'] := printable_of_wording (by decide)
  simp only [printable_cons] at letters
  obtain ⟨backslash, x, u, U, _⟩ := letters
  unfold codePointEscape
  split
  · simp [backslash, x, printable_hexDigits]
  · split
    · simp [backslash, u, printable_hexDigits]
    · simp [backslash, U, printable_hexDigits]

/-- A character is shown as printable ones, if the quote is printable. -/
theorem printable_displayChar {quote : Char} (printable : isPrintable quote = true) (c : Char) :
    Printable (displayChar quote c) := by
  unfold displayChar
  split
  · next escaped =>
      have backslash : isPrintable '\\' = true := isPrintable_of_ascii (by decide) (by decide)
      rcases escaped with rfl | rfl
      · simp [backslash, printable]
      · simp [backslash]
  · split_ifs with newline carriage tab shown
    · exact printable_of_wording (by decide)
    · exact printable_of_wording (by decide)
    · exact printable_of_wording (by decide)
    · exact List.forall_mem_singleton.mpr shown
    · exact printable_codePointEscape c

/-- **A text is printable in its display form.** -/
theorem printable_display (text : Text) : Printable (display text) := by
  have quote : isPrintable (displayQuote text) = true := by
    unfold displayQuote
    split <;> exact isPrintable_of_ascii (by decide) (by decide)
  rw [display, printable_append, printable_cons]
  refine ⟨⟨quote, fun c member => ?_⟩, List.forall_mem_singleton.mpr quote⟩
  obtain ⟨d, _, shown⟩ := List.mem_flatMap.mp member
  exact printable_displayChar quote d c shown

end Text

open Text (Printable)

/-! ## Reports -/

theorem Headline.printable_text (headline : Headline) (language : Language) :
    Printable (headline.text language) := by
  cases language with
  | japanese =>
      show Printable headline.japanese.toList
      cases headline <;> exact Text.printable_toList (by decide +kernel)
  | english =>
      show Printable headline.english.toList
      cases headline <;> exact Text.printable_toList (by decide +kernel)

theorem Detail.printable_display (detail : Detail) : Printable detail.display := by
  cases detail with
  | text chars => exact Text.printable_display chars
  | number value => exact Text.printable_ofInt value

/-- What is shown of the line at fault. -/
def Settings.shownLine (settings : Settings) : Option Text → Text
  | none => []
  | some line => if settings.showsLine then " sql='".toList ++ Text.strip line ++ ['\''] else []

namespace Settings

variable {settings : Settings} {line : Option Text}

theorem shownLine_eq_nil (hidden : settings.showsLine = false) : settings.shownLine line = [] := by
  cases line <;> simp [shownLine, hidden]

/-- No line feed is in what is shown of a line that has none. -/
theorem newline_not_mem_shownLine (inLine : ∀ text, line = some text → '\n' ∉ text) :
    '\n' ∉ settings.shownLine line := by
  cases line with
  | none => exact List.not_mem_nil
  | some text =>
      have inside : '\n' ∉ Text.strip text := by
        intro member
        have trimmed := (Text.dropRightWhile_prefix Text.isSpace _).subset member
        exact inLine text rfl ((List.dropWhile_sublist Text.isSpace).subset trimmed)
      cases shows : settings.showsLine <;> simp [shownLine, shows, inside]

end Settings

namespace Report

/-- The names that details have. -/
def detailNames : List Text :=
  ["position", "text", "expected", "actual", "line", "param", "type", "index"].map String.toList

/-- A report has its details under names of the list. -/
def Named (report : Report) : Prop := ∀ detail ∈ report.details, detail.1 ∈ detailNames

theorem printable_showDetail {detail : Text × Detail} (named : detail.1 ∈ detailNames) :
    Printable (showDetail detail) := by
  have all : ∀ name ∈ detailNames,
      ((name ++ ['=']).all fun c => Text.inRuns Text.wordingRuns c.toNat) = true := by
    decide +kernel
  rw [showDetail, List.append_cons, Text.printable_append]
  exact ⟨Text.printable_of_wording (all detail.1 named), detail.2.printable_display⟩

/-- What a message says before the line that is shown in it. -/
def wording (report : Report) (language : Language) : Text :=
  report.headline.text language ++
    (if report.details.isEmpty then [] else
      ':' :: ' ' :: Text.join [' '] (report.details.map showDetail))

theorem printable_wording {report : Report} (named : report.Named) (language : Language) :
    Printable (report.wording language) := by
  have details : Printable (Text.join [' '] (report.details.map showDetail)) := by
    apply Text.printable_join (Text.printable_of_wording (by decide))
    intro piece member
    obtain ⟨detail, inside, rfl⟩ := List.mem_map.mp member
    exact printable_showDetail (named detail inside)
  rw [wording, Text.printable_append]
  refine ⟨report.headline.printable_text language, ?_⟩
  split
  · exact Text.printable_nil
  · have separator : Printable [':', ' '] := Text.printable_of_wording (by decide)
    exact Text.printable_append.mpr ⟨separator, details⟩

theorem message_eq (report : Report) (settings : Settings) :
    report.message settings =
      report.wording settings.language ++ settings.shownLine report.line := by
  unfold message Settings.shownLine
  cases report.line <;> rfl

end Report

namespace LiteralError

variable (error : LiteralError)

theorem named_report : error.report.Named := by
  cases kind : error.kind <;>
    simp [Report.Named, report, kind, Report.note, Report.count, Report.detailNames]

theorem line_report : error.report.line = none := by
  cases kind : error.kind <;> simp [report, kind]

end LiteralError

namespace DeclarationError

variable (error : DeclarationError)

theorem named_report : error.report.Named := by
  cases fault : error.fault <;>
    simp [Report.Named, report, fault, Report.note, Report.count, Report.detailNames]

theorem line_report : error.report.line = error.line := by
  cases fault : error.fault <;> simp [report, fault]

end DeclarationError

namespace BindingError

variable (error : BindingError)

theorem named_report : error.report.Named := by
  cases fault : error.fault <;> cases position : error.position <;>
    simp [Report.Named, report, fault, position, Report.note, Report.count, Report.detailNames]

theorem line_report : error.report.line = none := by
  cases fault : error.fault <;> simp [report, fault]

end BindingError

theorem RenderingError.printable_message (error : RenderingError) : Printable error.message := by
  cases error with
  | placeholderBesideDialect => exact Text.printable_toList (by decide +kernel)
  | unsupportedPlaceholder placeholder =>
      apply Text.printable_append.mpr
      exact ⟨Text.printable_toList (by decide +kernel), Text.printable_display placeholder⟩
  | numberAmongPieces index =>
      have front : Printable ("sequence item ".toList ++ Text.ofNat index) :=
        Text.printable_append.mpr
          ⟨Text.printable_toList (by decide +kernel), Text.printable_ofNat index⟩
      exact Text.printable_append.mpr ⟨front, Text.printable_toList (by decide +kernel)⟩

/-! ## Errors -/

namespace Error

/-- The line that is at fault. -/
def line? : Error → Option Text
  | .declaration error => error.line
  | _ => none

/-- The error of a literal that an error comes from. -/
def cause? : Error → Option LiteralError
  | .declaration ⟨.defaultMismatch cause, _, _, _⟩ => some cause
  | .binding ⟨.invalidArgument _ cause, _, _⟩ => cause
  | _ => none

/-- **A message is printable up to the line that is shown in it.** -/
theorem message_eq (settings : Settings) (error : Error) :
    ∃ front, Printable front ∧
      error.message settings = front ++ settings.shownLine error.line? := by
  have reported {report : Report} (named : report.Named) (line : report.line = error.line?) :
      ∃ front, Printable front ∧
        report.message settings = front ++ settings.shownLine error.line? :=
    ⟨_, report.printable_wording named settings.language, line ▸ report.message_eq settings⟩
  cases error with
  | literal error => exact reported error.named_report error.line_report
  | declaration error => exact reported error.named_report error.line_report
  | binding error => exact reported error.named_report error.line_report
  | rendering error => exact ⟨_, error.printable_message, (List.append_nil _).symm⟩
  | integerTooLarge =>
      refine ⟨"int too large to convert to float".toList, ?_, rfl⟩
      exact Text.printable_toList (by decide +kernel)
  | arrayInArray =>
      refine ⟨"ArrayValue cannot contain ArrayValue".toList, ?_, rfl⟩
      exact Text.printable_toList (by decide +kernel)

/-- The line at fault, if an error has one, has no line feed. -/
def InLine (error : Error) : Prop := ∀ line, error.line? = some line → '\n' ∉ line

/-- An error is reported on one line, and in printable characters only if lines are not shown. -/
structure OnOneLine (settings : Settings) (error : Error) : Prop where
  newline : '\n' ∉ error.message settings
  printable : settings.showsLine = false → Printable (error.message settings)

theorem InLine.onOneLine {error : Error} (inLine : error.InLine) (settings : Settings) :
    error.OnOneLine settings := by
  obtain ⟨front, printable, message⟩ := error.message_eq settings
  constructor
  · rw [message, List.mem_append, not_or]
    exact ⟨printable.newline_not_mem, Settings.newline_not_mem_shownLine inLine⟩
  · intro hidden
    rwa [message, Settings.shownLine_eq_nil hidden, List.append_nil]

/-- An error that is met when a text is read as a literal, as an argument, as a header or as a
query, when a query is bound, or when values are read from arguments. -/
inductive Raised : Error → Prop
  | literal {type : ParamType} {text : Text} {error : LiteralError}
      (failed : Literal.parse type text = .error error) : Raised (.literal error)
  | item {base : BaseType} {text : Text} {error : LiteralError}
      (failed : Literal.coerce base text = .error error) : Raised (.literal error)
  | header {marker text : Text} {error : Error}
      (failed : Header.read marker text = .error error) : Raised error
  | query {marker text : Text} {strict : Bool} {error : Error}
      (failed : Query.parse marker strict text = .error error) : Raised error
  | binding {query : Query} {values : Table Supplied} {error : Error}
      (failed : query.bind values = .error error) : Raised error
  | arguments {declarations : List Declaration} {pairs : List (Text × Text)} {error : Error}
      (failed : Arguments.values declarations pairs = .error error) : Raised error

end Error

/-! ## Raised errors -/

/-- A line of a text has no line feed but the one that closes it. -/
theorem Text.newline_not_mem_chomp {text line : Text} (member : line ∈ lines text) :
    '\n' ∉ chomp line := by
  obtain ⟨i, there⟩ := List.getElem?_of_mem member
  intro inside
  rcases ended_of_lines there with ⟨content, inLine, rfl⟩ | ⟨inLine, _⟩
  · rw [chomp_append_newline] at inside
    have front := chomp_prefix content
    exact inLine (front.subset inside)
  · have front := chomp_prefix line
    exact inLine (front.subset inside)

/-- A header fails with a line of the text. -/
theorem Header.inLine_of_read {marker text : Text} {error : Error}
    (failed : read marker text = .error error) : error.InLine := by
  obtain ⟨earlier, line, later, declarations, cut, _, refused⟩ := ofLines_eq_error_iff.mp failed
  obtain ⟨⟨name, rest⟩, opened, _⟩ := Option.map_eq_some_iff.mp refused
  obtain ⟨tail, opens, _⟩ := Declaration.exists_opensAs opened
  have member : line ∈ Text.lines text := by simp [cut]
  have inLine := Text.newline_not_mem_chomp member
  intro found has
  cases blames_of_declare_error opens refused with
  | duplicate | form | mismatch => exact Option.some.inj has ▸ inLine
  | literal => cases has

namespace Query

variable {query : Query} {error : Error}

theorem inLine_of_check (failed : query.check = .error error) : error.InLine := by
  have checks := query.checks_check
  rw [failed] at checks
  cases checks <;> exact nofun

theorem inLine_of_parse {marker text : Text} {strict : Bool}
    (failed : parse marker strict text = .error error) : error.InLine := by
  unfold parse at failed
  split at failed
  · next refused =>
      obtain rfl := Except.error.inj failed
      exact Header.inLine_of_read (map_eq_error_iff.mp refused)
  · split at failed
    · exact inLine_of_check failed
    · cases failed

theorem inLine_of_bind {values : Table Supplied} (failed : query.bind values = .error error) :
    error.InLine := by
  obtain ⟨_, _, _, _, _, refuses⟩ := bind_eq_error_iff.mp failed
  cases refuses with
  | undeclared => exact nofun
  | declared _ refuses => cases refuses <;> exact nofun

end Query

theorem Arguments.inLine_of_values {declarations : List Declaration} {pairs : List (Text × Text)}
    {error : Error} (failed : values declarations pairs = .error error) : error.InLine := by
  obtain ⟨_, declaration, _, _, _, refuses⟩ :=
    (values_eq_error_iff declarations pairs error).mp failed
  -- What is refused is said of any texts, so where they were taken from is forgotten.
  generalize textsOf pairs declaration.name = texts at refuses
  cases refuses <;> exact nofun

namespace Error

variable {error : Error}

/-- Only the error of a header has a line, and that has no line feed. -/
theorem Raised.inLine (raised : error.Raised) : error.InLine := by
  cases raised with
  | literal | item => exact nofun
  | header failed => exact Header.inLine_of_read failed
  | query failed => exact Query.inLine_of_parse failed
  | binding failed => exact Query.inLine_of_bind failed
  | arguments failed => exact Arguments.inLine_of_values failed

/-- The log that the messages of some errors are written to, each on a line. -/
def log (settings : Settings) (errors : List Error) : Text :=
  (errors.map (message settings)).flatMap (· ++ ['\n'])

/-- A log is cut into the messages that were written to it. -/
theorem lines_log {errors : List Error} (raised : ∀ error ∈ errors, error.Raised)
    (settings : Settings) :
    Text.lines (log settings errors) = (errors.map (message settings)).map (· ++ ['\n']) := by
  have inLine : ∀ written ∈ errors.map (message settings), '\n' ∉ written := by
    intro written member
    obtain ⟨error, inside, rfl⟩ := List.mem_map.mp member
    exact ((raised error inside).inLine.onOneLine settings).newline
  have cut := Text.lines_flatMap inLine []
  rwa [List.append_nil, Text.lines, List.append_nil] at cut

/-- **An error that is raised is reported on one line**, and so is the error of the literal that it
comes from. -/
theorem Raised.reported_on_one_line (raised : error.Raised) (settings : Settings) :
    error.OnOneLine settings ∧
      ∀ cause, error.cause? = some cause → (Error.literal cause).OnOneLine settings := by
  refine ⟨raised.inLine.onOneLine settings, fun cause _ => ?_⟩
  have inLine : (Error.literal cause).InLine := nofun
  exact inLine.onOneLine settings

/-- A default is of another form than its type, and an escape and a line separator are in it. They
are shown by their code points, and as they are only where the line is shown. -/
theorem reported_on_one_line_mismatch :
    let line := "--? n: num = 'x\x1b\u2028'".toList
    let cause : LiteralError := ⟨.typeMismatch (.scalar .num) (.item .str), line, 13⟩
    let error : Error := .declaration ⟨.defaultMismatch cause, ['n'], 1, some line⟩
    let hides : Settings := ⟨.english, false, "--?".toList⟩
    let shows : Settings := ⟨.english, true, "--?".toList⟩
    Header.read "--?".toList (line ++ "\r\nselect @n".toList) = .error error ∧
      (Error.literal cause).message hides = "Literal type mismatch: position=13 ".toList ++
        "expected='num' actual='str' text=\"--? n: num = 'x\\x1b\\u2028'\"".toList ∧
      error.message shows = "Default value does not match the declared type: ".toList ++
        "line=1 param='n' sql='".toList ++ line ++ ['\''] ∧
      error.OnOneLine hides ∧ (Error.literal cause).OnOneLine hides ∧ error.OnOneLine shows := by
  intro line cause error hides shows
  have failed : Header.read "--?".toList (line ++ "\r\nselect @n".toList) = .error error := by
    decide +kernel
  obtain ⟨here, causes⟩ := Raised.reported_on_one_line (.header failed) hides
  refine ⟨failed, by decide +kernel, by decide +kernel, here, causes cause rfl, ?_⟩
  exact (Raised.reported_on_one_line (.header failed) shows).1

end Error
end TypedQuery
