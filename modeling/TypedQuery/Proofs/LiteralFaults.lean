import TypedQuery.Proofs.LiteralOffsets

/-!
# Errors of literals point at their cause

A text that is no literal of a type is at fault somewhere, and the error has the offset of the
place. What is wrong there is said by the two parts into which the offset divides the text
(`Literal.Cause`). Behind the first part a literal is due, the whole one or an item of it
(`Literal.Due`), and the second part does not start with one; or such a literal has just been read
(`Literal.Passed`), and the second part does not go on as it should. Only an array that is never
closed is at fault at its opening bracket, however far it was read.

In every case the first part is right: it can be completed to a literal of the type
(`Literal.Cause.exists_completion`). So no error comes later than the first character that is wrong,
and `Literal.points_at_cause` says what stands there, kind by kind.

The reader of items keeps one property from item to item: an item is due behind what it has read
(`Literal.faulty_of_readItems`).
-/

set_option autoImplicit false

namespace TypedQuery

namespace Literal

/-! ## First characters -/

namespace Form

/-- The form of the literals of a type. -/
def ofType : ParamType → Form
  | .scalar base => .item base
  | .array _ => .array

/-- A character is a first character of the literals of a form. -/
inductive Opens : Form → Char → Prop
  | quote {c : Char} (isQuote : c = '\'' ∨ c = '"') : Opens (.item .str) c
  | sign : Opens (.item .raw) '#'
  | bracket : Opens .array '['
  | number {c : Char} (mark : c.isDigit = true ∨ c = '+' ∨ c = '-' ∨ c = '.') :
      Opens (.item .num) c

theorem ofChar?_eq_some_iff {c : Char} {form : Form} : ofChar? c = some form ↔ Opens form c := by
  constructor
  · intro shown
    unfold ofChar? at shown
    split at shown
    · next isQuote => exact Option.some.inj shown ▸ .quote isQuote
    · split at shown
      · next isSign => exact Option.some.inj shown ▸ isSign ▸ .sign
      · split at shown
        · next isBracket => exact Option.some.inj shown ▸ isBracket ▸ .bracket
        · split at shown
          · next mark => exact Option.some.inj shown ▸ .number mark
          · cases shown
  · intro opens
    cases opens with
    | quote isQuote => exact if_pos isQuote
    | sign | bracket => rfl
    | number mark =>
        have apart : ∀ d, d.isDigit = false → d ∉ ['+', '-', '.'] → c ≠ d := by
          rintro d noDigit noMark rfl
          simp only [List.mem_cons, List.not_mem_nil, or_false] at noMark
          rcases mark with digit | mark
          · rw [digit] at noDigit
            cases noDigit
          · exact noMark mark
        simp [ofChar?, apart '\'' rfl (by decide), apart '"' rfl (by decide),
          apart '#' rfl (by decide), apart '[' rfl (by decide), mark]

/-- Another form than that of a type has another name than the type. -/
theorem text_ne {form : Form} {type : ParamType} (other : form ≠ ofType type) :
    form.text ≠ type.text := by
  cases form with
  | array => cases type with | scalar base | array base => cases base <;> decide
  | item base =>
      cases type with
      | array base' => cases base <;> cases base' <;> decide
      | scalar base' =>
          cases base <;> cases base' <;> first | exact absurd rfl other | decide

end Form

/-! ## Where a literal is due -/

/-- An item of an array is due behind a text: behind the opening bracket, or behind an item and a
comma. -/
inductive DueItem (base : BaseType) : Text → Prop
  | first {before blanks : Text} (blank : Text.Blanks before) (blank' : Text.Blanks blanks) :
      DueItem base (before ++ '[' :: blanks)
  | next {before literal blanks blanks' : Text} {item : Scalar} (due : DueItem base before)
      (based : item.base = base) (writes : WritesItem literal item) (blank : Text.Blanks blanks)
      (blank' : Text.Blanks blanks') :
      DueItem base (before ++ (literal ++ (blanks ++ ',' :: blanks')))

/-- Where a literal of a type is read, a literal is due behind a text: that literal itself at the
start, or an item of it. -/
inductive Due : ParamType → Text → ParamType → Prop
  | whole {type : ParamType} {blanks : Text} (blank : Text.Blanks blanks) : Due type blanks type
  | item {base : BaseType} {before : Text} (due : DueItem base before) :
      Due (.array base) before (.scalar base)

/-- Where a literal of a type is read, a literal that was due is complete, with blanks behind it at
most. -/
inductive Passed (type : ParamType) : Text → ParamType → Prop
  | intro {before literal blanks : Text} {expected : ParamType} {value : Value}
      (due : Due type before expected) (writes : Writes expected literal value)
      (blank : Text.Blanks blanks) : Passed type (before ++ (literal ++ blanks)) expected

/-- No literal of a type stands at the front of a text. -/
def StartsNone (type : ParamType) (text : Text) : Prop :=
  ∀ literal value after, Writes type literal value → (type = .scalar .num → EndsNumber after) →
    text ≠ literal ++ after

theorem startsNone_of_read_error {type : ParamType} {input : Text} {fault : Fault}
    (refused : read type input = .error fault) : StartsNone type input := by
  rintro literal value after writes ends rfl
  have taken := read_of_writes writes fun isNum => endsNumber_iff.mp (ends isNum)
  cases refused.symm.trans taken

/-! ## What stands before a fault -/

/-- Each base type has a literal. -/
theorem exists_writesItem (base : BaseType) :
    ∃ literal item, item.base = base ∧ WritesItem literal item := by
  have numeral : ∃ item rest, readScalar .num ['0'] = .ok (item, rest) := ⟨_, _, rfl⟩
  obtain ⟨item, _, read⟩ := numeral
  obtain ⟨literal, writes, isNum, _⟩ := writes_of_readScalar read
  cases base with
  | str => exact ⟨_, .str [], rfl, .str (.inl rfl) .done⟩
  | raw => exact ⟨_, .raw [], rfl, .raw (List.forall_mem_nil _)⟩
  | num => exact ⟨literal, item, isNum, writes⟩

/-- Where an item is due, items and a closing bracket complete the array. -/
theorem DueItem.parse_items {base : BaseType} {before text blanks : Text} {items : List Scalar}
    (due : DueItem base before) (writes : WritesItems base text items)
    (blank : Text.Blanks blanks) :
    ∃ value, parse (.array base) (before ++ (text ++ (blanks ++ [']']))) = .ok value := by
  -- the items that are read already come back in front of those that complete the array
  induction due generalizing text items with
  | @first before between blank' blank'' =>
      have array := parse_of_writes blank' (.items blank'' writes blank) Text.blanks_nil
      refine ⟨.array base items, ?_⟩
      rw [List.append_assoc]
      rwa [List.append_nil] at array
  | next _ based written blank' blank'' ih =>
      obtain ⟨value, parsed⟩ := ih (.cons based written blank' blank'' writes)
      refine ⟨value, ?_⟩
      simpa using parsed

/-- A literal of the type can be read from a text that goes on from here. -/
def Completes (type : ParamType) (before : Text) : Prop :=
  ∃ rest value, parse type (before ++ rest) = .ok value

theorem DueItem.completes {base : BaseType} {before : Text} (due : DueItem base before) :
    Completes (.array base) before := by
  obtain ⟨literal, item, based, writes⟩ := exists_writesItem base
  obtain ⟨value, parsed⟩ := due.parse_items (.last based writes) Text.blanks_nil
  exact ⟨_, value, parsed⟩

theorem Due.completes {type expected : ParamType} {before : Text}
    (due : Due type before expected) : Completes type before := by
  cases due with
  | item due => exact due.completes
  | whole blank =>
      cases type with
      | scalar base =>
          obtain ⟨literal, item, rfl, writes⟩ := exists_writesItem base
          exact ⟨_, _, parse_of_writes blank (.scalar writes) Text.blanks_nil⟩
      | array base =>
          exact ⟨_, _, parse_of_writes blank (.empty base Text.blanks_nil) Text.blanks_nil⟩

theorem Passed.completes {type expected : ParamType} {before : Text}
    (passed : Passed type before expected) : Completes type before := by
  obtain @⟨_, _, _, _, value, due, writes, blank⟩ := passed
  cases due with
  | whole blank' =>
      refine ⟨[], value, ?_⟩
      rw [List.append_nil]
      exact parse_of_writes blank' writes blank
  | item due =>
      obtain ⟨item, rfl, based, written⟩ := writes.exists_item
      obtain ⟨value, parsed⟩ := due.parse_items (.last based written) blank
      refine ⟨[']'], value, ?_⟩
      simpa using parsed

/-! ## Causes -/

/-- What is wrong at a place of a text where no literal of the type stands, by the text before the
place and the text from there on. -/
inductive Cause (type : ParamType) : Text → Text → FaultKind → Prop
  /-- A literal that is due opens, with a quote, a number sign or a bracket, and is never closed. -/
  | unterminated {before rest : Text} {expected : ParamType} {c : Char}
      (due : Due type before expected) (opening : c ∈ ['\'', '"', '#', '['])
      (opens : (Form.ofType expected).Opens c) (unclosed : StartsNone expected (c :: rest)) :
      Cause type before (c :: rest) .unterminated
  /-- A literal of another form than that of the type that is due opens. -/
  | typeMismatch {before rest : Text} {expected : ParamType} {actual : Form} {c : Char}
      (due : Due type before expected) (opens : actual.Opens c)
      (other : actual ≠ Form.ofType expected) :
      Cause type before (c :: rest) (.typeMismatch expected actual)
  /-- No literal opens where one is due. -/
  | unopened {before rest : Text} {expected : ParamType} (due : Due type before expected)
      (notBlank : Text.Stops Text.isBlank rest)
      (opensNone : ∀ c, rest.head? = some c → ∀ form, ¬ Form.Opens form c) :
      Cause type before rest .unmatchedDelimiter
  /-- No numeral of a double stands where a number is due. -/
  | noNumeral {before rest : Text} (due : Due type before (.scalar .num))
      (notBlank : Text.Stops Text.isBlank rest) (none : StartsNone (.scalar .num) rest) :
      Cause type before rest .invalidNumber
  /-- A comma is followed by the bracket that closes the array. -/
  | trailingComma {base : BaseType} {before blanks rest : Text} (array : type = .array base)
      (due : DueItem base (before ++ ',' :: blanks)) (blank : Text.Blanks blanks) :
      Cause type (before ++ ',' :: blanks) (']' :: rest) .trailingComma
  /-- An item is followed by neither a comma nor the bracket that closes the array. -/
  | unseparated {base : BaseType} {before rest : Text} {c : Char} (array : type = .array base)
      (passed : Passed type before (.scalar base)) (notBlank : Text.isBlank c = false)
      (inLine : Text.isLineEnd c = false) (separates : c ≠ ',' ∧ c ≠ ']') :
      Cause type before (c :: rest) .unmatchedDelimiter
  /-- The text goes on behind its literal. -/
  | leftover {before rest : Text} {c : Char} (passed : Passed type before type)
      (notNum : type ≠ .scalar .num) (notBlank : Text.isBlank c = false) :
      Cause type before (c :: rest) .unmatchedDelimiter
  /-- The text goes on behind its number. -/
  | numberGoesOn {before rest : Text} {c : Char} (isNum : type = .scalar .num)
      (passed : Passed type before type) (notBlank : Text.isBlank c = false) :
      Cause type before (c :: rest) .invalidNumber

/-- **What stands before a fault is right**: it can be completed to a literal of the type. -/
theorem Cause.exists_completion {type : ParamType} {before rest : Text} {kind : FaultKind}
    (cause : Cause type before rest kind) : Completes type before := by
  cases cause with
  | unterminated due | typeMismatch due | unopened due | noNumeral due => exact due.completes
  | trailingComma array due => exact array ▸ due.completes
  | unseparated _ passed | leftover passed | numberGoesOn _ passed => exact passed.completes

/-- Only numbers and arrays of them can be at fault as numbers. -/
theorem Cause.of_invalidNumber {type : ParamType} {before rest : Text}
    (cause : Cause type before rest .invalidNumber) :
    type = .scalar .num ∨ type = .array .num := by
  cases cause with
  | numberGoesOn isNum => exact .inl isNum
  | noNumeral due =>
      cases due with
      | whole => exact .inl rfl
      | item => exact .inr rfl

/-- A literal of another form has another name than the type that was asked for. -/
theorem Cause.of_typeMismatch {type expected : ParamType} {actual : Form} {before rest : Text}
    (cause : Cause type before rest (.typeMismatch expected actual)) :
    actual.text ≠ expected.text := by
  cases cause with
  | typeMismatch _ _ other => exact Form.text_ne other

/-- A fault of a text, with its cause. -/
inductive Faulty (type : ParamType) : Text → Fault → Prop
  | intro {before : Text} {fault : Fault} (cause : Cause type before fault.rest fault.kind) :
      Faulty type (before ++ fault.rest) fault

theorem Faulty.of_cause {type : ParamType} {before rest text : Text} {kind : FaultKind}
    (cause : Cause type before rest kind) (divided : text = before ++ rest) :
    Faulty type text ⟨kind, rest⟩ :=
  divided ▸ @Faulty.intro type before ⟨kind, rest⟩ cause

/-- Where a literal is due, a text that shows another form or none is at fault at its start. -/
theorem faulty_of_refusal {type expected : ParamType} {before input : Text}
    (due : Due type before expected) (notBlank : Text.Stops Text.isBlank input)
    (other : Form.next? input ≠ some (Form.ofType expected)) :
    Faulty type (before ++ input) (refusal expected input) := by
  unfold refusal
  split
  · next actual shown =>
      cases input with
      | nil => cases shown
      | cons c rest =>
          refine .of_cause (.typeMismatch due (Form.ofChar?_eq_some_iff.mp shown) ?_) rfl
          rintro rfl
          exact other shown
  · next shown =>
      refine .of_cause (.unopened due notBlank fun c first form opens => ?_) rfl
      obtain ⟨rest, rfl⟩ := List.head?_eq_some_iff.mp first
      rw [Form.next?, Form.ofChar?_eq_some_iff.mpr opens] at shown
      cases shown

/-- An item that is due and cannot be read is at fault at its start. -/
theorem faulty_of_readScalar {type : ParamType} {base : BaseType} {before input : Text}
    {fault : Fault} (due : Due type before (.scalar base))
    (notBlank : Text.Stops Text.isBlank input) (refused : readScalar base input = .error fault) :
    Faulty type (before ++ input) fault := by
  have none : StartsNone (.scalar base) input :=
    startsNone_of_read_error (map_eq_error_iff.mpr refused)
  cases base with
  | str =>
      cases input with
      | nil =>
          obtain rfl := Except.error.inj refused
          exact faulty_of_refusal due notBlank (Option.some_ne_none _).symm
      | cons c rest =>
          simp only [readScalar, readStr] at refused
          split at refused
          · next opens =>
              split at refused
              · cases refused
              · obtain rfl := Except.error.inj refused
                have isQuote : c = '\'' ∨ c = '"' := by simpa [Literal.isQuote] using opens
                have opening : c ∈ ['\'', '"', '#', '['] := by
                  rcases isQuote with rfl | rfl <;> decide
                exact .of_cause (.unterminated due opening (.quote isQuote) none) rfl
          · next notQuote =>
              obtain rfl := Except.error.inj refused
              refine faulty_of_refusal due notBlank fun shown => notQuote ?_
              cases Form.ofChar?_eq_some_iff.mp shown with
              | quote isQuote => simpa [Literal.isQuote] using isQuote
  | num =>
      simp only [readScalar, readNum] at refused
      split at refused
      · split at refused
        · cases refused
        · obtain rfl := Except.error.inj refused
          exact .of_cause (.noNumeral due notBlank none) rfl
      · next other =>
          obtain rfl := Except.error.inj refused
          exact faulty_of_refusal due notBlank fun shown => other (.inl shown)
  | raw =>
      cases input with
      | nil =>
          obtain rfl := Except.error.inj refused
          exact faulty_of_refusal due notBlank (Option.some_ne_none _).symm
      | cons c rest =>
          simp only [readScalar, readRaw] at refused
          split at refused
          · next isSign =>
              subst isSign
              split at refused
              · cases refused
              · obtain rfl := Except.error.inj refused
                exact .of_cause (.unterminated due (by decide) .sign none) rfl
          · next noSign =>
              obtain rfl := Except.error.inj refused
              refine faulty_of_refusal due notBlank fun shown => noSign ?_
              cases Form.ofChar?_eq_some_iff.mp shown with
              | sign => rfl

/-- An item that is read is a literal of it, with blanks in front of what comes next. -/
theorem writesItem_of_next {base : BaseType} {input after tail : Text} {item : Scalar} {c : Char}
    (first : readScalar base input = .ok (item, after)) (next : Text.dropBlanks after = c :: tail) :
    ∃ literal blanks, WritesItem literal item ∧ item.base = base ∧ Text.Blanks blanks ∧
      input = literal ++ (blanks ++ c :: tail) := by
  obtain ⟨literal, writes, based, rfl⟩ := writes_of_readScalar first
  obtain ⟨blanks, blank, ends⟩ := Text.exists_blanks after
  rw [next] at ends
  exact ⟨literal, blanks, writes, based, blank, by rw [ends]⟩

/-- Behind an item and a comma the next item is due. -/
theorem DueItem.step {base : BaseType} {front input after tail : Text} {item : Scalar}
    (due : DueItem base front) (first : readScalar base input = .ok (item, after))
    (next : Text.dropBlanks after = ',' :: tail) :
    ∃ before blanks, DueItem base (before ++ ',' :: blanks) ∧ Text.Blanks blanks ∧
      front ++ input = (before ++ ',' :: blanks) ++ Text.dropBlanks tail := by
  obtain ⟨literal, blanks, writes, based, blank, rfl⟩ := writesItem_of_next first next
  obtain ⟨blanks', blank', ends⟩ := Text.exists_blanks tail
  have behind := due.next based writes blank blank'
  have parts : front ++ (literal ++ (blanks ++ ',' :: blanks')) =
      (front ++ (literal ++ blanks)) ++ ',' :: blanks' := by simp
  rw [parts] at behind
  refine ⟨_, blanks', behind, blank', ?_⟩
  rw [← parts]
  simp only [List.append_assoc, List.cons_append, ← ends]

/-- Items that cannot be read are at fault at one of them, behind one of them, or at the opening
bracket. -/
theorem faulty_of_readItems {base : BaseType} {text opening front input : Text} {fault : Fault}
    (unclosed : Faulty (.array base) text ⟨.unterminated, opening⟩) (due : DueItem base front)
    (divided : text = front ++ input) (notBlank : Text.Stops Text.isBlank input)
    (refused : readItems base opening input = .error fault) :
    Faulty (.array base) text fault := by
  -- before each item, an item is due behind all that is read
  fun_induction readItems base opening input generalizing front fault with
  | case1 | case3 | case4 =>
      obtain rfl := Except.error.inj refused
      exact unclosed
  | case2 input _ other first =>
      obtain rfl := Except.error.inj refused
      exact divided ▸ faulty_of_readScalar (.item due) notBlank first
  | case5 => cases refused
  | case6 input _ item after first tail closing next =>
      obtain rfl := Except.error.inj refused
      obtain ⟨before, blanks, behind, blank, parts⟩ := due.step first next
      obtain ⟨rest, closed⟩ := List.head?_eq_some_iff.mp closing
      rw [closed] at parts ⊢
      exact .of_cause (.trailingComma rfl behind blank) (divided.trans parts)
  | case7 input _ item after first tail _ next _ _ ih =>
      obtain ⟨_, _, behind, _, parts⟩ := due.step first next
      exact ih behind (divided.trans parts) (Text.stops_dropWhile _ _)
        (map_eq_error_iff.mp refused)
  | case8 input _ item after first c tail next inLine notClosing notComma =>
      obtain rfl := Except.error.inj refused
      have notBlank' : Text.isBlank c = false :=
        Text.stops_dropWhile Text.isBlank after c (congrArg List.head? next)
      obtain ⟨literal, blanks, writes, based, blank, rfl⟩ := writesItem_of_next first next
      have passed : Passed (.array base) (front ++ (literal ++ blanks)) (.scalar base) := by
        subst based
        exact .intro (.item due) (.scalar writes) blank
      exact .of_cause (.unseparated rfl passed notBlank' (Bool.eq_false_iff.mpr inLine)
        ⟨notComma, notClosing⟩) (by simp [divided])

/-- A literal that cannot be read behind blanks is at fault for a cause. -/
theorem faulty_of_read_error {type : ParamType} {blanks input : Text} {fault : Fault}
    (blank : Text.Blanks blanks) (notBlank : Text.Stops Text.isBlank input)
    (refused : read type input = .error fault) : Faulty type (blanks ++ input) fault := by
  cases type with
  | scalar base =>
      exact faulty_of_readScalar (.whole blank) notBlank (map_eq_error_iff.mp refused)
  | array base =>
      have none := startsNone_of_read_error refused
      simp only [read] at refused
      unfold readArray at refused
      split at refused
      · next inner =>
          have unclosed : Faulty (.array base) (blanks ++ '[' :: inner)
              ⟨.unterminated, '[' :: inner⟩ :=
            .of_cause (.unterminated (.whole blank) (by decide) .bracket none) rfl
          obtain ⟨blanks', blank', starts⟩ := Text.exists_blanks inner
          split at refused
          · cases refused
          · have divided : blanks ++ '[' :: inner =
                (blanks ++ '[' :: blanks') ++ Text.dropBlanks inner := by
              rw [List.append_assoc, List.cons_append, ← starts]
            exact faulty_of_readItems unclosed (.first blank blank') divided
              (Text.stops_dropWhile _ _) (map_eq_error_iff.mp refused)
      · next noBracket =>
          obtain rfl := Except.error.inj refused
          refine faulty_of_refusal (.whole blank) notBlank fun shown => ?_
          cases input with
          | nil => cases shown
          | cons c rest =>
              cases Form.ofChar?_eq_some_iff.mp shown with
              | bracket => exact noBracket _ rfl

/-- What goes on behind a literal is at fault. -/
theorem faulty_of_leftover {type : ParamType} {before rest : Text}
    (passed : Passed type before type) (notBlank : Text.Stops Text.isBlank rest)
    (some : rest ≠ []) : Faulty type (before ++ rest) (leftover type rest) := by
  obtain ⟨c, later, rfl⟩ := List.exists_cons_of_ne_nil some
  unfold leftover
  split
  · next isNum => exact .of_cause (.numberGoesOn isNum passed (notBlank c rfl)) rfl
  · next notNum => exact .of_cause (.leftover passed notNum (notBlank c rfl)) rfl

/-- An error of a literal names the text, and a place in it or its end where the cause lies. The
text before that place can be completed to a literal. -/
structure PointsAtCause (type : ParamType) (text : Text) (error : LiteralError) : Prop where
  about : error.text = text
  within : error.position ≤ text.length
  cause : Cause type (text.take error.position) (text.drop error.position) error.kind
  completes : Completes type (text.take error.position)
  numbers : error.kind = .invalidNumber → type = .scalar .num ∨ type = .array .num
  apart : ∀ expected actual, error.kind = .typeMismatch expected actual →
    actual.text ≠ expected.text

theorem Faulty.pointsAtCause {type : ParamType} {text : Text} {fault : Fault}
    (faulty : Faulty type text fault) : PointsAtCause type text (fault.locate text 0) := by
  obtain @⟨before, fault, cause⟩ := faulty
  have position : 0 + ((before ++ fault.rest).length - fault.rest.length) = before.length := by
    rw [List.length_append, Nat.add_sub_cancel, Nat.zero_add]
  refine ⟨rfl, ?_, ?_, ?_, ?_, ?_⟩ <;>
    simp only [Fault.locate, List.drop_zero, position, List.take_left, List.drop_left]
  · rw [List.length_append]
    exact Nat.le_add_right _ _
  · exact cause
  · exact cause.exists_completion
  · intro isNum
    exact (isNum ▸ cause).of_invalidNumber
  · intro expected actual mismatch
    exact (mismatch ▸ cause).of_typeMismatch

/-- **Errors of literals point at their cause.** A text has a value of a type, or there is one error
of one of the five kinds, which names the text and the place in it, and the cause of its kind is
there. -/
theorem points_at_cause (type : ParamType) (text : Text) :
    (∃ value, parse type text = .ok value) ∨
      ∃ error, parse type text = .error error ∧ PointsAtCause type text error := by
  obtain ⟨blanks, blank, starts⟩ := Text.exists_blanks text
  have notBlank := Text.stops_dropWhile Text.isBlank text
  cases taken : read type (Text.dropBlanks text) with
  | error fault =>
      have faulty := faulty_of_read_error blank notBlank taken
      rw [← Text.dropBlanks, ← starts] at faulty
      exact .inr ⟨_, by rw [parse, taken, whole], faulty.pointsAtCause⟩
  | ok found =>
      obtain ⟨value, rest⟩ := found
      by_cases none : Text.dropBlanks rest = []
      · exact .inl ⟨value, by rw [parse, taken, whole, if_pos none]⟩
      · obtain ⟨literal, writes, divided⟩ := writes_of_read taken
        obtain ⟨blanks', blank', ends⟩ := Text.exists_blanks rest
        have faulty := faulty_of_leftover (.intro (.whole blank) writes blank')
          (Text.stops_dropWhile _ _) none
        have parts : blanks ++ (literal ++ blanks') ++ Text.dropBlanks rest = text := by
          rw [List.append_assoc, List.append_assoc, ← ends, ← divided, ← starts]
        rw [← Text.dropBlanks, parts] at faulty
        exact .inr ⟨_, by rw [parse, taken, whole, if_neg none], faulty.pointsAtCause⟩

example : parse (.array .num) "[1, ]".toList = .error ⟨.trailingComma, "[1, ]".toList, 4⟩ := by
  decide +kernel

end Literal
end TypedQuery
