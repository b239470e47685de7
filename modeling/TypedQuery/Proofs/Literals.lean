import TypedQuery.Literal.Reading
import TypedQuery.Proofs.Agreement
import TypedQuery.Proofs.Numerals

/-!
# The grammar of literals

The literals of a type are those of a grammar: a text between two equal quotes with escapes, a
raw piece between number signs, a numeral, or items of one base type between brackets
(`Literal.Writes`). The grammar says of a text which value it writes, and nothing about how to
find out.

Reading agrees with the grammar in both directions. What is read from the front of an input is a
literal of the grammar (`Literal.writes_of_read`). A literal of the grammar is read in front of
anything (`Literal.read_of_writes`), where a numeral must not be continued: it reaches up to the
next delimiter, and no digit is a delimiter. Together, a text has a value exactly if the grammar
writes that value with blanks around it at most (`Literal.parse_eq_ok_iff`).
-/

set_option autoImplicit false

namespace TypedQuery

namespace Literal

/-! ## The grammar -/

/-- The characters between two quotes and the text that they stand for: a backslash takes the
character after it as it is. -/
inductive Units (quote : Char) : Text → Text → Prop where
  | done : Units quote [] []
  | escaped {c : Char} {units text : Text} (inLine : Text.isLineEnd c = false)
      (later : Units quote units text) : Units quote ('\\' :: c :: units) (c :: text)
  | plain {c : Char} {units text : Text} (inLine : Text.isLineEnd c = false)
      (notQuote : c ≠ quote) (notEscape : c ≠ '\\') (later : Units quote units text) :
      Units quote (c :: units) (c :: text)

/-- A text is a literal of an item. -/
inductive WritesItem : Text → Scalar → Prop where
  | str {quote : Char} {units text : Text} (isQuote : quote = '\'' ∨ quote = '"')
      (inside : Units quote units text) : WritesItem (quote :: (units ++ [quote])) (.str text)
  | raw {text : Text} (inside : ∀ c ∈ text, c ≠ '#' ∧ Text.isLineEnd c = false) :
      WritesItem ('#' :: (text ++ ['#'])) (.raw text)
  | num {text : Text} {decimal : Decimal} {magnitude : Magnitude}
      (writes : Numeral.Writes text decimal) (nearest : magnitude.IsNearest decimal.count) :
      WritesItem text (.num (.finite decimal.negative magnitude))

/-- A text is literals of one or more items of a base type, separated by commas with blanks around
them at most. -/
inductive WritesItems (base : BaseType) : Text → List Scalar → Prop where
  | last {text : Text} {item : Scalar} (based : item.base = base) (writes : WritesItem text item) :
      WritesItems base text [item]
  | cons {text before after later : Text} {item : Scalar} {items : List Scalar}
      (based : item.base = base) (writes : WritesItem text item) (blank : Text.Blanks before)
      (blank' : Text.Blanks after) (more : WritesItems base later items) :
      WritesItems base (text ++ (before ++ ',' :: (after ++ later))) (item :: items)

/-- A text is a literal of a type, without blanks around it, and stands for a value. -/
inductive Writes : ParamType → Text → Value → Prop where
  | scalar {text : Text} {item : Scalar} (writes : WritesItem text item) :
      Writes (.scalar item.base) text (.scalar item)
  | empty (base : BaseType) {blanks : Text} (blank : Text.Blanks blanks) :
      Writes (.array base) ('[' :: (blanks ++ [']'])) (.array base [])
  | items {base : BaseType} {before text after : Text} {items : List Scalar}
      (blank : Text.Blanks before) (writes : WritesItems base text items)
      (blank' : Text.Blanks after) :
      Writes (.array base) ('[' :: (before ++ (text ++ (after ++ [']'])))) (.array base items)

/-! ## Delimiters and first characters -/

/-- No delimiter of numbers is a digit. -/
theorem isNumberChar_of_isDigit {c : Char} (digit : Text.isDigit c = true) :
    isNumberChar c = true := by
  obtain ⟨value, found⟩ := Option.isSome_iff_exists.mp digit
  obtain ⟨least, first, _⟩ := Option.map_eq_some_iff.mp found
  have within : least ≤ c.toNat ∧ c.toNat < least + 10 := by
    simpa using List.find?_some first
  have apart : ∀ least ∈ Text.zeroDigits, ∀ run ∈ Text.spaceRuns,
      run.2 < least ∨ least + 10 ≤ run.1 := by decide
  have noSpace : Text.isSpace c = false := by
    refine Bool.eq_false_iff.mpr fun space => ?_
    obtain ⟨run, member, inRun⟩ := List.any_eq_true.mp space
    simp only [Bool.and_eq_true, decide_eq_true_eq] at inRun
    have := apart least (List.mem_of_find?_eq_some first) run member
    omega
  have delimiters : [',', '[', ']', '/', '\'', '"', '#'].all (!Text.isDigit ·) = true := by decide
  have noDelimiter : ∀ d ∈ [',', '[', ']', '/', '\'', '"', '#'], (c == d) = false := by
    intro d member
    refine beq_eq_false_iff_ne.mpr fun same => ?_
    have other := List.all_eq_true.mp delimiters d member
    rw [← same, digit] at other
    cases other
  simp only [List.forall_mem_cons] at noDelimiter
  simp [isNumberChar, isQuote, noSpace, noDelimiter]

/-- A numeral has no delimiter. -/
theorem isNumberChar_of_writes {text : Text} {decimal : Decimal}
    (writes : Numeral.Writes text decimal) : ∀ c ∈ text, isNumberChar c = true := by
  intro c member
  rcases writes.marked c member with digit | mark
  · exact isNumberChar_of_isDigit digit
  · simp only [Numeral.marks, List.mem_cons, List.not_mem_nil, or_false] at mark
    rcases mark with rfl | rfl | rfl | rfl | rfl <;> rfl

/-- A blank is a delimiter. -/
theorem isNumberChar_of_isBlank {c : Char} (blank : Text.isBlank c = true) :
    isNumberChar c = false := by
  simp [isNumberChar, Text.isSpace_of_isBlank blank]

/-- Numbers end at blanks that go on with a delimiter or with nothing. -/
theorem stops_isNumberChar {blanks rest : Text} (blank : Text.Blanks blanks)
    (stops : Text.Stops isNumberChar rest) : Text.Stops isNumberChar (blanks ++ rest) := by
  cases blanks with
  | nil => exact stops
  | cons c blanks =>
      exact Text.stops_cons (isNumberChar_of_isBlank (blank c List.mem_cons_self)) _

/-- No white space is a character of a number. -/
theorem isSpace_of_isNumberChar {c : Char} (char : isNumberChar c = true) :
    Text.isSpace c = false := by
  simp only [isNumberChar, Bool.not_eq_true', Bool.or_eq_false_iff] at char
  simp [char]

/-- A text starts as an item may: with no blank, no line end and no closing bracket. -/
inductive OpensItem : Text → Prop where
  | intro {c : Char} (rest : Text) (notBlank : Text.isBlank c = false)
      (inLine : Text.isLineEnd c = false) (notClosing : c ≠ ']') : OpensItem (c :: rest)

namespace OpensItem

variable {text : Text}

/-- A text that starts with a character of a number starts as an item may. -/
theorem of_isNumberChar {c : Char} (char : isNumberChar c = true) (later : Text) :
    OpensItem (c :: later) := by
  have noSpace := isSpace_of_isNumberChar char
  refine .intro later (Text.isBlank_eq_false noSpace) (Text.isLineEnd_eq_false noSpace) ?_
  intro closing
  subst closing
  cases char

theorem append (opens : OpensItem text) (more : Text) : OpensItem (text ++ more) := by
  cases opens with
  | intro rest notBlank inLine notClosing => exact .intro (rest ++ more) notBlank inLine notClosing

theorem stops (opens : OpensItem text) : Text.Stops Text.isBlank text := by
  cases opens with
  | intro rest notBlank => exact Text.stops_cons notBlank rest

theorem inLine (opens : OpensItem text) : Text.atLineEnd text = false := by
  cases opens with
  | intro _ _ inLine => exact inLine

theorem head?_ne (opens : OpensItem text) : text.head? ≠ some ']' := by
  cases opens with
  | intro _ _ _ notClosing => exact fun closing => notClosing (Option.some.inj closing)

end OpensItem

/-- An item starts as one may. -/
theorem WritesItem.opens {text : Text} {item : Scalar} (writes : WritesItem text item) :
    OpensItem text := by
  cases writes with
  | str isQuote => rcases isQuote with rfl | rfl <;> exact .intro _ rfl rfl (by decide)
  | raw => exact .intro _ rfl rfl (by decide)
  | num writes =>
      obtain ⟨c, later, rfl⟩ := List.exists_cons_of_ne_nil writes.ne_nil
      exact .of_isNumberChar (isNumberChar_of_writes writes c List.mem_cons_self) later

theorem WritesItems.opens {base : BaseType} {text : Text} {items : List Scalar}
    (writes : WritesItems base text items) : OpensItem text := by
  cases writes with
  | last _ writes => exact writes.opens
  | cons _ writes => exact writes.opens.append _

/-- A literal starts with no blank. -/
theorem Writes.stops {type : ParamType} {text : Text} {value : Value}
    (writes : Writes type text value) (rest : Text) : Text.Stops Text.isBlank (text ++ rest) := by
  cases writes with
  | scalar writes => exact (writes.opens.append rest).stops
  | empty => exact Text.stops_cons rfl _
  | items => exact Text.stops_cons rfl _

/-- A literal of a scalar type is that of an item. -/
theorem Writes.exists_item {base : BaseType} {text : Text} {value : Value}
    (writes : Writes (.scalar base) text value) :
    ∃ item, value = .scalar item ∧ item.base = base ∧ WritesItem text item := by
  generalize isScalar : ParamType.scalar base = type at writes
  cases writes with
  | scalar writes => exact ⟨_, rfl, (ParamType.scalar.inj isScalar).symm, writes⟩
  | empty => cases isScalar
  | items => cases isScalar

/-- The items of an array literal are of its base type and have literals of their own. -/
theorem WritesItems.exists_item {base : BaseType} {text : Text} {items : List Scalar}
    (writes : WritesItems base text items) :
    ∀ item ∈ items, item.base = base ∧ ∃ text, WritesItem text item := by
  induction writes with
  | last based writes => exact List.forall_mem_singleton.mpr ⟨based, _, writes⟩
  | cons based writes _ _ _ ih => exact List.forall_mem_cons.mpr ⟨⟨based, _, writes⟩, ih⟩

/-! ## Literals stand on one line -/

theorem Units.oneLine {quote : Char} {units text : Text} (inside : Units quote units text) :
    units.OneLine ∧ text.OneLine := by
  induction inside with
  | done => exact ⟨List.forall_mem_nil _, List.forall_mem_nil _⟩
  | escaped inLine _ ih =>
      exact ⟨List.forall_mem_cons.mpr ⟨rfl, List.forall_mem_cons.mpr ⟨inLine, ih.1⟩⟩,
        List.forall_mem_cons.mpr ⟨inLine, ih.2⟩⟩
  | plain inLine _ _ _ ih =>
      exact ⟨List.forall_mem_cons.mpr ⟨inLine, ih.1⟩, List.forall_mem_cons.mpr ⟨inLine, ih.2⟩⟩

theorem WritesItem.oneLine {text : Text} {item : Scalar} (writes : WritesItem text item) :
    text.OneLine := by
  cases writes with
  | @str quote _ _ isQuote inside =>
      have inLine : Text.isLineEnd quote = false := by rcases isQuote with rfl | rfl <;> rfl
      have closing : Text.OneLine [quote] := List.forall_mem_singleton.mpr inLine
      refine List.forall_mem_cons.mpr ⟨inLine, ?_⟩
      exact List.forall_mem_append.mpr ⟨inside.oneLine.1, closing⟩
  | raw inside =>
      refine List.forall_mem_cons.mpr ⟨rfl, List.forall_mem_append.mpr ⟨?_, ?_⟩⟩
      · exact fun c member => (inside c member).2
      · exact List.forall_mem_singleton.mpr rfl
  | num writes =>
      intro c member
      have char := isNumberChar_of_writes writes c member
      exact Text.isLineEnd_eq_false (isSpace_of_isNumberChar char)

theorem WritesItems.oneLine {base : BaseType} {text : Text} {items : List Scalar}
    (writes : WritesItems base text items) : text.OneLine := by
  induction writes with
  | last _ writes => exact writes.oneLine
  | cons _ writes blank blank' _ ih =>
      refine List.forall_mem_append.mpr ⟨writes.oneLine, ?_⟩
      refine List.forall_mem_append.mpr ⟨blank.oneLine, ?_⟩
      exact List.forall_mem_cons.mpr ⟨rfl, List.forall_mem_append.mpr ⟨blank'.oneLine, ih⟩⟩

/-- A literal stands on one line. -/
theorem Writes.oneLine {type : ParamType} {text : Text} {value : Value}
    (writes : Writes type text value) : text.OneLine := by
  have closing : Text.OneLine [']'] := List.forall_mem_singleton.mpr rfl
  cases writes with
  | scalar writes => exact writes.oneLine
  | empty _ blank =>
      exact List.forall_mem_cons.mpr ⟨rfl, List.forall_mem_append.mpr ⟨blank.oneLine, closing⟩⟩
  | items blank writes blank' =>
      refine List.forall_mem_cons.mpr ⟨rfl, List.forall_mem_append.mpr ⟨blank.oneLine, ?_⟩⟩
      refine List.forall_mem_append.mpr ⟨writes.oneLine, ?_⟩
      exact List.forall_mem_append.mpr ⟨blank'.oneLine, closing⟩

/-! ## What is written is read -/

theorem quoted?_of_units {quote : Char} (marks : quote = '\'' ∨ quote = '"')
    {units text : Text} (inside : Units quote units text) (rest : Text) :
    quoted? quote (units ++ quote :: rest) = some (text, rest) := by
  induction inside with
  | done =>
      have inLine : Text.isLineEnd quote = false := by rcases marks with rfl | rfl <;> decide
      have notEscape : quote ≠ '\\' := by rcases marks with rfl | rfl <;> decide
      rw [List.nil_append]
      unfold quoted?
      simp [inLine, notEscape]
  | escaped inLine _ ih =>
      have escape : Text.isLineEnd '\\' = false := rfl
      simp [quoted?, escape, inLine, ih]
  | plain inLine notQuote notEscape _ ih =>
      rw [List.cons_append]
      unfold quoted?
      simp [inLine, notQuote, notEscape, ih]

theorem readNum_of_writes {text rest : Text} {decimal : Decimal} {magnitude : Magnitude}
    (writes : Numeral.Writes text decimal) (nearest : magnitude.IsNearest decimal.count)
    (stops : Text.Stops isNumberChar rest) :
    readNum (text ++ rest) = .ok (.num (.finite decimal.negative magnitude), rest) := by
  have chars := isNumberChar_of_writes writes
  have form : Form.next? (text ++ rest) = some (.item .num) ∨ Form.next? (text ++ rest) = none := by
    obtain ⟨c, later, rfl⟩ := List.exists_cons_of_ne_nil writes.ne_nil
    have char := chars c List.mem_cons_self
    simp only [isNumberChar, isQuote, Bool.not_eq_true', Bool.or_eq_false_iff,
      beq_eq_false_iff_ne] at char
    simp only [List.cons_append, Form.next?, Form.ofChar?, char, or_self, if_false]
    split
    · exact .inl rfl
    · exact .inr rfl
  have number := (Numeral.double?_eq_some_iff text _).mpr ⟨decimal, magnitude, writes, nearest, rfl⟩
  rw [readNum, if_pos form, Text.takeWhile_append chars stops, number,
    Text.dropWhile_append chars stops]

/-- An item that is written is read, in front of anything that does not continue a number. -/
theorem readScalar_of_writes {text rest : Text} {item : Scalar} (writes : WritesItem text item)
    (ends : item.base = .num → Text.Stops isNumberChar rest) :
    readScalar item.base (text ++ rest) = .ok (item, rest) := by
  cases writes with
  | @str quote units text marks inside =>
      have opens : isQuote quote = true := by rcases marks with rfl | rfl <;> decide
      have closed : quoted? quote (units ++ [quote] ++ rest) = some (text, rest) := by
        rw [List.append_assoc]
        exact quoted?_of_units marks inside rest
      simp only [Scalar.base, readScalar, List.cons_append, readStr, opens, if_true, closed]
  | @raw text inside =>
      have chars : ∀ c ∈ text, isRawChar c = true := by
        intro c member
        simp [isRawChar, inside c member]
      have closes : Text.Stops isRawChar ('#' :: rest) := Text.stops_cons rfl rest
      have closed : text ++ ['#'] ++ rest = text ++ '#' :: rest := by simp
      simp only [Scalar.base, readScalar, List.cons_append, readRaw, if_true, closed,
        Text.dropWhile_append chars closes, Text.takeWhile_append chars closes]
  | num writes nearest => exact readNum_of_writes writes nearest (ends rfl)

/-- One step of reading items, by what comes after the item: the array is closed, or a comma goes
on to the next item. -/
theorem readItems_eq {base : BaseType} {opening input rest : Text} {item : Scalar}
    (going : Text.atLineEnd input = false) (first : readScalar base input = .ok (item, rest)) :
    readItems base opening input =
      match Text.dropBlanks rest with
      | [] => .error ⟨.unterminated, opening⟩
      | c :: after =>
          if Text.isLineEnd c then .error ⟨.unterminated, opening⟩
          else if c = ']' then .ok ([item], after)
          else if c = ',' then
            if (Text.dropBlanks after).head? = some ']' then
              .error ⟨.trailingComma, Text.dropBlanks after⟩
            else
              (readItems base opening (Text.dropBlanks after)).map fun (items, rest) =>
                (item :: items, rest)
          else .error ⟨.unmatchedDelimiter, c :: after⟩ := by
  rw [readItems, going, first]
  simp only [Bool.false_eq_true, if_false]
  cases Text.dropBlanks rest with
  | nil => rfl
  | cons c after => rfl

/-- Items that are written are read up to the closing bracket. -/
theorem readItems_of_writes {base : BaseType} {text : Text} {items : List Scalar}
    (writes : WritesItems base text items) {blanks : Text} (blank : Text.Blanks blanks)
    (opening rest : Text) :
    readItems base opening (text ++ (blanks ++ ']' :: rest)) = .ok (items, rest) := by
  -- only the last item meets the blanks before the bracket
  induction writes with
  | @last text item based writes =>
      have ends : Text.Stops isNumberChar (blanks ++ ']' :: rest) :=
        stops_isNumberChar blank (Text.stops_cons rfl rest)
      have first := readScalar_of_writes writes fun _ => ends
      rw [based] at first
      have closes : Text.Stops Text.isBlank (']' :: rest) := Text.stops_cons rfl rest
      have closed := Text.dropBlanks_append blank closes
      rw [readItems_eq (writes.opens.append _).inLine first, closed]
      rfl
  | @cons text before after later item items based writes blank blank' more ih =>
      have ends : ∀ rest, Text.Stops isNumberChar (before ++ ',' :: rest) := fun rest =>
        stops_isNumberChar blank (Text.stops_cons rfl rest)
      have comma : ∀ rest, Text.dropBlanks (before ++ ',' :: rest) = ',' :: rest := fun rest =>
        Text.dropBlanks_append blank (Text.stops_cons rfl rest)
      have first := readScalar_of_writes writes fun _ =>
        ends (after ++ later ++ (blanks ++ ']' :: rest))
      rw [based] at first
      have opens := more.opens.append (blanks ++ ']' :: rest)
      have next := Text.dropBlanks_append blank' opens.stops
      have parts : text ++ (before ++ ',' :: (after ++ later)) ++ (blanks ++ ']' :: rest) =
          text ++ (before ++ ',' :: (after ++ later ++ (blanks ++ ']' :: rest))) := by simp
      rw [parts, readItems_eq (writes.opens.append _).inLine first, comma, List.append_assoc]
      simp only [next, if_neg opens.head?_ne, ih]
      rfl

/-- **A literal that is written is read**, in front of anything that does not continue a
number. -/
theorem read_of_writes {type : ParamType} {text rest : Text} {value : Value}
    (writes : Writes type text value)
    (ends : type = .scalar .num → Text.Stops isNumberChar rest) :
    read type (text ++ rest) = .ok (value, rest) := by
  cases writes with
  | scalar writes =>
      have first := readScalar_of_writes writes fun isNum => ends (congrArg ParamType.scalar isNum)
      rw [read, first]
      rfl
  | empty base blank =>
      have closes : Text.Stops Text.isBlank (']' :: rest) := Text.stops_cons rfl rest
      have closed := Text.dropBlanks_append blank closes
      have parts : ∀ blanks : Text,
          '[' :: (blanks ++ [']']) ++ rest = '[' :: (blanks ++ ']' :: rest) := by simp
      rw [parts, read, readArray]
      simp only [closed]
  | @items base before text after items blank writes blank' =>
      have opens := writes.opens.append (after ++ ']' :: rest)
      have next := Text.dropBlanks_append blank opens.stops
      have parts : '[' :: (before ++ (text ++ (after ++ [']']))) ++ rest =
          '[' :: (before ++ (text ++ (after ++ ']' :: rest))) := by simp
      rw [parts, read, readArray]
      simp only [next]
      split
      · next closed => exact absurd (congrArg List.head? closed) opens.head?_ne
      · rw [readItems_of_writes writes blank']
        rfl

/-! ## What is read is written -/

theorem units_of_quoted? {quote : Char} {input text rest : Text}
    (closed : quoted? quote input = some (text, rest)) :
    ∃ units, Units quote units text ∧ input = units ++ quote :: rest := by
  fun_induction quoted? quote input generalizing text rest with
  | case5 escaped tail inLine _ ih =>
      obtain ⟨⟨inner, after⟩, inside, same⟩ := Option.map_eq_some_iff.mp closed
      obtain ⟨rfl, rfl⟩ := Prod.mk.inj same
      obtain ⟨units, units', rfl⟩ := ih inside
      exact ⟨_, .escaped (Bool.eq_false_iff.mpr inLine) units', rfl⟩
  | case6 =>
      obtain ⟨rfl, rfl⟩ := Prod.mk.inj (Option.some.inj closed)
      exact ⟨[], .done, rfl⟩
  | case7 c tail inLine notEscape notQuote ih =>
      obtain ⟨⟨inner, after⟩, inside, same⟩ := Option.map_eq_some_iff.mp closed
      obtain ⟨rfl, rfl⟩ := Prod.mk.inj same
      obtain ⟨units, units', rfl⟩ := ih inside
      exact ⟨_, .plain (Bool.eq_false_iff.mpr inLine) notQuote notEscape units', rfl⟩
  | _ => cases closed

/-- What is read as an item is a literal of it. -/
theorem writes_of_readScalar {base : BaseType} {input rest : Text} {item : Scalar}
    (read : readScalar base input = .ok (item, rest)) :
    ∃ text, WritesItem text item ∧ item.base = base ∧ input = text ++ rest := by
  cases base with
  | str =>
      cases input with
      | nil => cases read
      | cons quote tail =>
          simp only [readScalar, readStr] at read
          split at read
          · next opens =>
              split at read
              · next text after closed =>
                  obtain ⟨rfl, rfl⟩ := Prod.mk.inj (Except.ok.inj read)
                  obtain ⟨units, inside, rfl⟩ := units_of_quoted? closed
                  have marks : quote = '\'' ∨ quote = '"' := by simpa [isQuote] using opens
                  exact ⟨_, .str marks inside, rfl, by simp⟩
              · cases read
          · cases read
  | num =>
      simp only [readScalar, readNum] at read
      split at read
      · split at read
        · next number found =>
            obtain ⟨rfl, rfl⟩ := Prod.mk.inj (Except.ok.inj read)
            obtain ⟨decimal, magnitude, writes, nearest, rfl⟩ :=
              (Numeral.double?_eq_some_iff _ _).mp found
            exact ⟨_, .num writes nearest, rfl, List.takeWhile_append_dropWhile.symm⟩
        · cases read
      · cases read
  | raw =>
      cases input with
      | nil => cases read
      | cons c tail =>
          simp only [readScalar, readRaw] at read
          split at read
          · next opens =>
              split at read
              · next after closed =>
                  obtain ⟨rfl, rfl⟩ := Prod.mk.inj (Except.ok.inj read)
                  have inside : ∀ c ∈ tail.takeWhile isRawChar,
                      c ≠ '#' ∧ Text.isLineEnd c = false := by
                    intro c member
                    simpa [isRawChar] using Text.all_takeWhile isRawChar tail c member
                  have parts : tail = tail.takeWhile isRawChar ++ '#' :: after := by
                    rw [← closed, List.takeWhile_append_dropWhile]
                  refine ⟨_, .raw inside, rfl, ?_⟩
                  rw [opens, List.cons_append, List.append_assoc]
                  exact congrArg ('#' :: ·) parts
              · cases read
          · cases read

/-- What is read as items is literals of them with commas between, and a closing bracket. -/
theorem writes_of_readItems {base : BaseType} {opening input rest : Text} {items : List Scalar}
    (read : readItems base opening input = .ok (items, rest)) :
    ∃ text blanks, WritesItems base text items ∧ Text.Blanks blanks ∧
      input = text ++ (blanks ++ ']' :: rest) := by
  fun_induction readItems base opening input generalizing items rest with
  | case5 input _ item after first tail next =>
      obtain ⟨rfl, rfl⟩ := Prod.mk.inj (Except.ok.inj read)
      obtain ⟨text, writes, based, rfl⟩ := writes_of_readScalar first
      obtain ⟨blanks, blank, same⟩ := Text.exists_blanks after
      rw [next] at same
      exact ⟨text, blanks, .last based writes, blank, by rw [same]⟩
  | case7 input _ item after first tail _ next _ _ ih =>
      obtain ⟨⟨more, last⟩, later, same⟩ := map_eq_ok_iff.mp read
      obtain ⟨rfl, rfl⟩ := Prod.mk.inj same
      obtain ⟨text, writes, based, rfl⟩ := writes_of_readScalar first
      obtain ⟨before, blank, divided⟩ := Text.exists_blanks after
      obtain ⟨between, blank', divided'⟩ := Text.exists_blanks tail
      obtain ⟨text', blanks, writes', blank'', rest⟩ := ih later
      rw [next] at divided
      refine ⟨_, blanks, .cons based writes blank blank' writes', blank'', ?_⟩
      rw [divided, divided', rest]
      simp
  | _ => cases read

/-- **What is read from the front of an input is a literal.** -/
theorem writes_of_read {type : ParamType} {input rest : Text} {value : Value}
    (taken : read type input = .ok (value, rest)) :
    ∃ text, Writes type text value ∧ input = text ++ rest := by
  cases type with
  | scalar base =>
      obtain ⟨⟨item, last⟩, first, same⟩ := map_eq_ok_iff.mp taken
      obtain ⟨rfl, rfl⟩ := Prod.mk.inj same
      obtain ⟨text, writes, rfl, divided⟩ := writes_of_readScalar first
      exact ⟨text, .scalar writes, divided⟩
  | array base =>
      simp only [read] at taken
      unfold readArray at taken
      split at taken
      · next inner =>
          obtain ⟨blanks, blank, divided⟩ := Text.exists_blanks inner
          split at taken
          · next after closed =>
              obtain ⟨rfl, rfl⟩ := Prod.mk.inj (Except.ok.inj taken)
              rw [closed] at divided
              exact ⟨_, .empty base blank, by rw [divided]; simp⟩
          · obtain ⟨⟨items, last⟩, later, same⟩ := map_eq_ok_iff.mp taken
            obtain ⟨rfl, rfl⟩ := Prod.mk.inj same
            obtain ⟨text, blanks', writes, blank', inside⟩ := writes_of_readItems later
            rw [inside] at divided
            exact ⟨_, .items blank writes blank', by rw [divided]; simp⟩
      · cases taken

/-! ## Whole texts -/

/-- A text that has a value is a literal of it, with blanks around it at most. -/
theorem writes_of_parse {type : ParamType} {text : Text} {value : Value}
    (parsed : parse type text = .ok value) : ∃ before literal after, Text.Blanks before ∧
      Writes type literal value ∧ Text.Blanks after ∧ text = before ++ (literal ++ after) := by
  unfold parse whole at parsed
  split at parsed
  · cases parsed
  · next found rest taken =>
      split at parsed
      · next none =>
          obtain rfl := Except.ok.inj parsed
          obtain ⟨literal, writes, inside⟩ := writes_of_read taken
          obtain ⟨before, blank, divided⟩ := Text.exists_blanks text
          rw [inside] at divided
          exact ⟨before, literal, rest, blank, writes, Text.blanks_of_dropBlanks none, divided⟩
      · cases parsed

/-- A literal with blanks around it has its value. -/
theorem parse_of_writes {type : ParamType} {before literal after : Text} {value : Value}
    (blank : Text.Blanks before) (writes : Writes type literal value)
    (blank' : Text.Blanks after) : parse type (before ++ (literal ++ after)) = .ok value := by
  have ends : Text.Stops isNumberChar after := by
    have stops := stops_isNumberChar blank' (Text.stops_nil isNumberChar)
    rwa [List.append_nil] at stops
  rw [parse, Text.dropBlanks_append blank (writes.stops after),
    read_of_writes writes fun _ => ends, whole, if_pos (Text.dropBlanks_of_blanks blank')]

/-- **A text has a value exactly if it is a literal of the value, with blanks around it at most.**
The literals of a type are those of the grammar, and a number is the double that is nearest to what
its numeral says. -/
theorem parse_eq_ok_iff (type : ParamType) (text : Text) (value : Value) :
    parse type text = .ok value ↔ ∃ before literal after, Text.Blanks before ∧
      Writes type literal value ∧ Text.Blanks after ∧ text = before ++ (literal ++ after) := by
  refine ⟨writes_of_parse, ?_⟩
  rintro ⟨before, literal, after, blank, writes, blank', rfl⟩
  exact parse_of_writes blank writes blank'

end Literal
end TypedQuery
