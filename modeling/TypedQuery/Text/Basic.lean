/-!
# Texts, blanks and lines

A query is read as a list of characters, so an offset into a text is a number of
characters and a reader is a recursion on the list. A reader that stops part of the
way returns the rest of the text; the offset it has reached is the length it has
consumed.

Two classes of characters matter almost everywhere. A blank (a space or a tab) may
stand between the parts of a declaration or of a literal. A line end (a carriage
return or a line feed) may not stand inside a literal. Only a line feed ends a line:
`lines` cuts a text after each one, and nothing is lost by the cut (`flatten_lines`).
-/

set_option autoImplicit false

namespace TypedQuery

/-- A text is the list of its characters. -/
abbrev Text := List Char

/-- Texts that are found equal are equal. -/
instance Text.instLawfulBEq : LawfulBEq Text := inferInstance

namespace Text

/-! ## Blanks and line ends -/

/-- A blank is a space or a tab. -/
def isBlank (c : Char) : Bool := c == ' ' || c == '\t'

/-- The rest of a text after its leading blanks. -/
def dropBlanks (text : Text) : Text := text.dropWhile isBlank

/-- A carriage return or a line feed. -/
def isLineEnd (c : Char) : Bool := c == '\r' || c == '\n'

/-- Nothing is left of the line: the text is over, or a line end comes next. -/
def atLineEnd : Text → Bool
  | [] => true
  | c :: _ => isLineEnd c

theorem length_dropBlanks_le (text : Text) : (dropBlanks text).length ≤ text.length :=
  (List.dropWhile_sublist isBlank).length_le

/-! ## Trimming at the right -/

/-- A text without the longest run of characters of a class at its end. -/
def dropRightWhile (p : Char → Bool) (text : Text) : Text :=
  (text.reverse.dropWhile p).reverse

/-- A line without the line ends that close it. -/
def chomp (line : Text) : Text := dropRightWhile isLineEnd line

/-! ## Lines -/

/-- The lines of a text, each with the line feed that ends it. The last one may have none. -/
def lines : Text → List Text
  | [] => []
  | c :: rest =>
      if c = '\n' then [c] :: lines rest
      else
        match lines rest with
        | [] => [[c]]
        | line :: later => (c :: line) :: later

/-- Cutting into lines loses nothing. -/
theorem flatten_lines : ∀ text : Text, (lines text).flatten = text
  | [] => rfl
  | c :: rest => by
      have ih := flatten_lines rest
      unfold lines
      split
      · simp [ih]
      · split
        · next none => rw [none] at ih; simp [← ih]
        · next line later cut => rw [cut] at ih; simp [← ih]

/-! ## Pieces -/

/-- The characters from offset `start` up to offset `stop`. Offsets past the end are
clipped, and nothing lies between a start and a stop that does not come after it. -/
def slice (text : Text) (start stop : Nat) : Text := (text.take stop).drop start

/-- What stands between two texts is cut out by the offsets at which it starts and ends. -/
theorem slice_append (before inner after : Text) :
    slice (before ++ (inner ++ after)) before.length (before.length + inner.length) = inner := by
  rw [slice, ← List.append_assoc, ← List.length_append, List.take_left, List.drop_left]

/-- The texts one after the other with a separator between neighbours. -/
def join (separator : Text) (pieces : List Text) : Text := separator.intercalate pieces

theorem join_singleton (separator piece : Text) : join separator [piece] = piece :=
  List.intercalate_singleton

theorem join_cons_cons (separator piece next : Text) (later : List Text) :
    join separator (piece :: next :: later) =
      piece ++ (separator ++ join separator (next :: later)) := by
  rw [join, List.intercalate_cons_cons, List.append_assoc]
  rfl

/-- The rest of a text after a given opening, if it opens so. -/
def dropOpening? : Text → Text → Option Text
  | [], text => some text
  | _ :: _, [] => none
  | o :: opening, c :: text => if o = c then dropOpening? opening text else none

/-- A text opens in a given way exactly when it is that opening and the rest. -/
theorem dropOpening?_eq_some_iff (opening text rest : Text) :
    dropOpening? opening text = some rest ↔ text = opening ++ rest := by
  induction opening generalizing text with
  | nil => simp [dropOpening?]
  | cons o opening ih =>
      cases text with
      | nil => simp [dropOpening?]
      | cons c text =>
          by_cases same : o = c
          · subst same
            simp [dropOpening?, ih]
          · simp [dropOpening?, same, Ne.symm same]

/-- Whether a piece stands somewhere in a text. -/
def occursIn (piece : Text) : Text → Bool
  | [] => piece.isEmpty
  | c :: rest => (dropOpening? piece (c :: rest)).isSome || occursIn piece rest

/-- The decimal text of a natural number. -/
def ofNat (n : Nat) : Text := Nat.toDigits 10 n

/-- The decimal text of an integer, with a minus sign below zero. -/
def ofInt : Int → Text
  | .ofNat n => ofNat n
  | .negSucc n => '-' :: ofNat (n + 1)

end Text
end TypedQuery
