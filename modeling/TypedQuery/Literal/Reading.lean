import TypedQuery.Literal.Basic
import TypedQuery.Number.Numeral
import TypedQuery.Text.Space

/-!
# Reading literals

A literal stands on one line. A text stands between two equal quotes, and a backslash takes
the character after it as it is. A raw piece stands between two number signs and has no
escapes. A number ends at white space or at a delimiter, and all of it is a numeral. An
array holds items of one base type between brackets, separated by commas; blanks may stand
between its parts, and no comma before the closing bracket.

`read` takes a literal of a given type from the front of an input and returns the rest,
which is always an end of the input (`suffix_of_read`). `parse` asks that nothing but blanks
be left, and `coerce` reads a text that is an item by itself, where a text needs no quotes.
-/

set_option autoImplicit false

namespace TypedQuery
namespace Literal

/-- The fault of an input that does not open as its type asks. -/
def refusal (expected : ParamType) (input : Text) : Fault :=
  match Form.next? input with
  | some actual => ⟨.typeMismatch expected actual, input⟩
  | none => ⟨.unmatchedDelimiter, input⟩

/-! ## Texts and raw pieces -/

/-- A quote opens a text. -/
def isQuote (c : Char) : Bool := c == '\'' || c == '"'

/-- The text up to a closing quote on the same line, and what follows the quote. -/
def quoted? (quote : Char) : Text → Option (Text × Text)
  | [] => none
  | c :: rest =>
      if Text.isLineEnd c then none
      else if c = '\\' then
        match rest with
        | [] => none
        | escaped :: rest =>
            if Text.isLineEnd escaped then none
            else (quoted? quote rest).map fun (text, rest) => (escaped :: text, rest)
      else if c = quote then some ([], rest)
      else (quoted? quote rest).map fun (text, rest) => (c :: text, rest)

theorem suffix_of_quoted? (quote : Char) (input text rest : Text)
    (closed : quoted? quote input = some (text, rest)) : rest <:+ input := by
  fun_induction quoted? quote input generalizing text rest with
  | case1 => simp at closed
  | case2 => simp at closed
  | case3 => simp at closed
  | case4 => simp at closed
  | case5 escaped tail _ _ ih =>
      obtain ⟨⟨inner, after⟩, inside, same⟩ := Option.map_eq_some_iff.mp closed
      obtain ⟨_, rfl⟩ := Prod.mk.inj same
      exact (ih inner after inside).trans ((List.suffix_cons _ _).trans (List.suffix_cons _ _))
  | case6 =>
      obtain ⟨_, rfl⟩ := Prod.mk.inj (Option.some.inj closed)
      exact List.suffix_cons _ _
  | case7 c tail _ _ _ ih =>
      obtain ⟨⟨inner, after⟩, inside, same⟩ := Option.map_eq_some_iff.mp closed
      obtain ⟨_, rfl⟩ := Prod.mk.inj same
      exact (ih inner after inside).trans (List.suffix_cons _ _)

/-- A text between quotes. -/
def readStr : Text → Except Fault (Scalar × Text)
  | [] => .error (refusal (.scalar .str) [])
  | c :: rest =>
      if isQuote c then
        match quoted? c rest with
        | some (text, rest) => .ok (.str text, rest)
        | none => .error ⟨.unterminated, c :: rest⟩
      else .error (refusal (.scalar .str) (c :: rest))

/-- A character that may stand in a raw piece. -/
def isRawChar (c : Char) : Bool := c != '#' && !Text.isLineEnd c

/-- A raw piece between number signs. -/
def readRaw : Text → Except Fault (Scalar × Text)
  | [] => .error (refusal (.scalar .raw) [])
  | c :: rest =>
      if c = '#' then
        match rest.dropWhile isRawChar with
        | '#' :: after => .ok (.raw (rest.takeWhile isRawChar), after)
        | _ => .error ⟨.unterminated, c :: rest⟩
      else .error (refusal (.scalar .raw) (c :: rest))

/-! ## Numbers -/

/-- A character that does not end a number. -/
def isNumberChar (c : Char) : Bool :=
  !(Text.isSpace c || c == ',' || c == '[' || c == ']' || c == '/' || isQuote c || c == '#')

/-- A number up to the next delimiter. A number may open with a digit of any script, so an
input that shows no form is read as one too. -/
def readNum (input : Text) : Except Fault (Scalar × Text) :=
  if Form.next? input = some (.item .num) ∨ Form.next? input = none then
    match Numeral.double? (input.takeWhile isNumberChar) with
    | some number => .ok (.num number, input.dropWhile isNumberChar)
    | none => .error ⟨.invalidNumber, input⟩
  else .error (refusal (.scalar .num) input)

/-! ## Items and arrays -/

/-- An item of a base type. -/
def readScalar : BaseType → Text → Except Fault (Scalar × Text)
  | .str => readStr
  | .num => readNum
  | .raw => readRaw

theorem suffix_of_readScalar (base : BaseType) (input : Text) (item : Scalar) (rest : Text)
    (read : readScalar base input = .ok (item, rest)) : rest <:+ input := by
  cases base with
  | str =>
      cases input with
      | nil => simp [readScalar, readStr] at read
      | cons c tail =>
          simp only [readScalar, readStr] at read
          split at read
          · split at read
            · next text after closed =>
                obtain ⟨_, rfl⟩ := Prod.mk.inj (Except.ok.inj read)
                exact (suffix_of_quoted? c tail text after closed).trans (List.suffix_cons _ _)
            · simp at read
          · simp at read
  | num =>
      simp only [readScalar, readNum] at read
      split at read
      · split at read
        · obtain ⟨_, rfl⟩ := Prod.mk.inj (Except.ok.inj read)
          exact List.dropWhile_suffix _
        · simp at read
      · simp at read
  | raw =>
      cases input with
      | nil => simp [readScalar, readRaw] at read
      | cons c tail =>
          simp only [readScalar, readRaw] at read
          split at read
          · split at read
            · next after closed =>
                obtain ⟨_, rfl⟩ := Prod.mk.inj (Except.ok.inj read)
                have within : after <:+ tail.dropWhile isRawChar := closed ▸ List.suffix_cons _ _
                exact (within.trans (List.dropWhile_suffix _)).trans (List.suffix_cons _ _)
            · simp at read
          · simp at read

/-- The items of an array from the first one up to the closing bracket. `opening` is the input
from the opening bracket, where an array that is never closed is reported. -/
def readItems (base : BaseType) (opening input : Text) : Except Fault (List Scalar × Text) :=
  if Text.atLineEnd input then .error ⟨.unterminated, opening⟩
  else
    match _read : readScalar base input with
    | .error fault => .error fault
    | .ok (item, rest) =>
        match _next : Text.dropBlanks rest with
        | [] => .error ⟨.unterminated, opening⟩
        | c :: after =>
            if Text.isLineEnd c then .error ⟨.unterminated, opening⟩
            else if c = ']' then .ok ([item], after)
            else if c = ',' then
              if (Text.dropBlanks after).head? = some ']' then
                .error ⟨.trailingComma, Text.dropBlanks after⟩
              else
                (readItems base opening (Text.dropBlanks after)).map fun (items, rest) =>
                  (item :: items, rest)
            else .error ⟨.unmatchedDelimiter, c :: after⟩
termination_by input.length
decreasing_by
  have first : rest.length ≤ input.length :=
    (suffix_of_readScalar base input item rest _read).length_le
  have second : after.length + 1 ≤ rest.length := by
    have shorter := Text.length_dropBlanks_le rest
    rw [_next] at shorter
    exact shorter
  have third := Text.length_dropBlanks_le after
  omega

theorem suffix_of_readItems (base : BaseType) (opening input : Text) (items : List Scalar)
    (rest : Text) (read : readItems base opening input = .ok (items, rest)) : rest <:+ input := by
  fun_induction readItems base opening input generalizing items rest with
  | case1 => simp at read
  | case2 => simp at read
  | case3 => simp at read
  | case4 => simp at read
  | case5 input _ item after first tail next =>
      obtain ⟨_, rfl⟩ := Prod.mk.inj (Except.ok.inj read)
      have within : tail <:+ Text.dropBlanks after := next ▸ List.suffix_cons _ _
      exact (within.trans (List.dropWhile_suffix _)).trans
        (suffix_of_readScalar base input item after first)
  | case6 => simp at read
  | case7 input _ item after first tail _ next _ _ ih =>
      cases later : readItems base opening (Text.dropBlanks tail) with
      | error fault =>
          rw [later] at read
          exact nomatch read
      | ok result =>
          obtain ⟨more, last⟩ := result
          rw [later] at read
          obtain ⟨_, rfl⟩ := Prod.mk.inj (Except.ok.inj read)
          have within : tail <:+ Text.dropBlanks after := next ▸ List.suffix_cons _ _
          exact ((ih more last later).trans (List.dropWhile_suffix _)).trans
            ((within.trans (List.dropWhile_suffix _)).trans
              (suffix_of_readScalar base input item after first))
  | case8 => simp at read

/-- An array of a base type. -/
def readArray (base : BaseType) (input : Text) : Except Fault (Value × Text) :=
  match input with
  | '[' :: inner =>
      match Text.dropBlanks inner with
      | ']' :: rest => .ok (.array base [], rest)
      | items =>
          (readItems base input items).map fun (items, rest) => (.array base items, rest)
  | _ => .error (refusal (.array base) input)

/-! ## Literals -/

/-- The literal of a type at the front of an input, and what follows it. -/
def read : ParamType → Text → Except Fault (Value × Text)
  | .scalar base, input =>
      (readScalar base input).map fun (item, rest) => (.scalar item, rest)
  | .array base, input => readArray base input

/-- What follows a literal is an end of the input. -/
theorem suffix_of_read (type : ParamType) (input : Text) (value : Value) (rest : Text)
    (taken : read type input = .ok (value, rest)) : rest <:+ input := by
  cases type with
  | scalar base =>
      cases first : readScalar base input with
      | error fault =>
          rw [read, first] at taken
          exact nomatch taken
      | ok result =>
          obtain ⟨item, last⟩ := result
          rw [read, first] at taken
          obtain ⟨_, rfl⟩ := Prod.mk.inj (Except.ok.inj taken)
          exact suffix_of_readScalar base input item last first
  | array base =>
      rw [read] at taken
      unfold readArray at taken
      split at taken
      · next inner =>
          split at taken
          · next last closed =>
              obtain ⟨_, rfl⟩ := Prod.mk.inj (Except.ok.inj taken)
              have within : last <:+ Text.dropBlanks inner := closed ▸ List.suffix_cons _ _
              exact (within.trans (List.dropWhile_suffix _)).trans (List.suffix_cons _ _)
          · cases later : readItems base ('[' :: inner) (Text.dropBlanks inner) with
            | error fault =>
                rw [later] at taken
                exact nomatch taken
            | ok result =>
                obtain ⟨items, last⟩ := result
                rw [later] at taken
                obtain ⟨_, rfl⟩ := Prod.mk.inj (Except.ok.inj taken)
                exact ((suffix_of_readItems base _ _ items last later).trans
                  (List.dropWhile_suffix _)).trans (List.suffix_cons _ _)
      · exact nomatch taken

/-- The literal of a type that starts at an offset of a text, and the offset after it. -/
def readAt (type : ParamType) (text : Text) (start : Nat) : Except LiteralError (Value × Nat) :=
  match read type (text.drop start) with
  | .ok (value, rest) => .ok (value, start + ((text.drop start).length - rest.length))
  | .error fault => .error (fault.locate text start)

/-- The fault of a text that goes on after its literal. A number that goes on is no number. -/
def leftover (type : ParamType) (rest : Text) : Fault :=
  if type = .scalar .num then ⟨.invalidNumber, rest⟩ else ⟨.unmatchedDelimiter, rest⟩

/-- What was read from a text, provided that nothing but blanks is left of it. -/
def whole {α : Type} (type : ParamType) (text : Text) :
    Except Fault (α × Text) → Except LiteralError α
  | .error fault => .error (fault.locate text 0)
  | .ok (value, rest) =>
      if Text.dropBlanks rest = [] then .ok value
      else .error ((leftover type (Text.dropBlanks rest)).locate text 0)

/-- The value of a text that is a literal of a type, with blanks around it at most. -/
def parse (type : ParamType) (text : Text) : Except LiteralError Value :=
  whole type text (read type (Text.dropBlanks text))

/-- The item that a text by itself stands for: a text is taken as it is, a number is a numeral
without blanks, and a raw piece is a literal. -/
def coerce (base : BaseType) (text : Text) : Except LiteralError Scalar :=
  match base with
  | .str => .ok (.str text)
  | .num =>
      match Numeral.double? text with
      | some number => .ok (.num number)
      | none => .error ⟨.invalidNumber, text, 0⟩
  | .raw => whole (.scalar .raw) text (readRaw (Text.dropBlanks text))

end Literal
end TypedQuery
