import Mathlib.Data.List.TakeWhile
import TypedQuery.Text.Space

/-!
# Runs of characters

Readers take the longest run of characters of a class from the front of a text. Where a run is put
in front of a rest, just that run is taken again if the rest does not start with a character of the
class (`Text.Stops`), and a text is cut in one way into such a run and such a rest
(`Text.run_unique`). No more than the first character of the rest matters.

Blanks are the runs that are dropped between the parts of a declaration or of a literal.
-/

set_option autoImplicit false

namespace TypedQuery

namespace Text

/-! ## Runs of characters -/

/-- A text does not start with a character of a class. -/
def Stops (p : Char → Bool) (text : Text) : Prop := ∀ c, text.head? = some c → p c = false

theorem stops_nil (p : Char → Bool) : Stops p [] := fun _ first => by cases first

theorem stops_cons {p : Char → Bool} {c : Char} (other : p c = false) (rest : Text) :
    Stops p (c :: rest) := by
  intro d first
  rwa [← Option.some.inj first]

theorem stops_dropWhile (p : Char → Bool) (text : Text) : Stops p (text.dropWhile p) := by
  intro c first
  have stopped := List.head?_dropWhile_not p text
  rw [first] at stopped
  exact Bool.eq_false_iff.mpr (by simpa using stopped)

theorem takeWhile_of_stops {p : Char → Bool} {text : Text} (stops : Stops p text) :
    text.takeWhile p = [] := by
  cases text with
  | nil => rfl
  | cons c rest => simp [stops c rfl]

theorem dropWhile_of_stops {p : Char → Bool} {text : Text} (stops : Stops p text) :
    text.dropWhile p = text := by
  cases text with
  | nil => rfl
  | cons c rest => simp [stops c rfl]

/-- A run of characters of a class is taken as a whole where it stops. -/
theorem takeWhile_append {p : Char → Bool} {run rest : Text} (all : ∀ c ∈ run, p c = true)
    (stops : Stops p rest) : (run ++ rest).takeWhile p = run := by
  rw [List.takeWhile_append_of_pos all, takeWhile_of_stops stops, List.append_nil]

theorem dropWhile_append {p : Char → Bool} {run rest : Text} (all : ∀ c ∈ run, p c = true)
    (stops : Stops p rest) : (run ++ rest).dropWhile p = rest := by
  rw [List.dropWhile_append_of_pos all, dropWhile_of_stops stops]

/-- A text is cut in one way into a run of characters of a class and a rest that stops it. -/
theorem run_unique {p : Char → Bool} {run run' rest rest' : Text} (all : ∀ c ∈ run, p c = true)
    (all' : ∀ c ∈ run', p c = true) (stops : Stops p rest) (stops' : Stops p rest')
    (same : run ++ rest = run' ++ rest') : run = run' ∧ rest = rest' := by
  constructor
  · rw [← takeWhile_append all stops, same, takeWhile_append all' stops']
  · rw [← dropWhile_append all stops, same, dropWhile_append all' stops']

theorem all_takeWhile (p : Char → Bool) (text : Text) : ∀ c ∈ text.takeWhile p, p c = true :=
  fun _ member => List.mem_takeWhile_imp member

/-- The front of a text starts with no other character than the text. -/
theorem Stops.front {p : Char → Bool} {front rest : Text} (stops : Stops p (front ++ rest)) :
    Stops p front := by
  intro c first
  refine stops c ?_
  rw [List.head?_append, first]
  rfl

/-! ## Trimmed texts -/

/-- A text with no white space at its ends. -/
structure Trimmed (text : Text) : Prop where
  front : Stops isSpace text
  back : Stops isSpace text.reverse

/-- What is dropped at the end of a text is a run of the class. -/
theorem exists_dropped (p : Char → Bool) (text : Text) :
    ∃ dropped, (∀ c ∈ dropped, p c = true) ∧ text = dropRightWhile p text ++ dropped := by
  refine ⟨(text.reverse.takeWhile p).reverse, fun c member => ?_, ?_⟩
  · exact all_takeWhile p _ c (List.mem_reverse.mp member)
  · rw [dropRightWhile, ← List.reverse_append, List.takeWhile_append_dropWhile,
      List.reverse_reverse]

theorem dropRightWhile_prefix (p : Char → Bool) (text : Text) : dropRightWhile p text <+: text := by
  obtain ⟨dropped, _, whole⟩ := exists_dropped p text
  exact ⟨dropped, whole.symm⟩

theorem trimmed_strip (text : Text) : Trimmed (strip text) where
  front := by
    have stops := stops_dropWhile isSpace text
    obtain ⟨closing, whole⟩ := dropRightWhile_prefix isSpace (text.dropWhile isSpace)
    rw [← whole] at stops
    exact stops.front
  back := by
    rw [strip, dropRightWhile, List.reverse_reverse]
    exact stops_dropWhile isSpace _

/-! ## Blanks and lines -/

/-- What is no white space is no blank. -/
theorem isBlank_eq_false {c : Char} (noSpace : isSpace c = false) : isBlank c = false := by
  refine Bool.eq_false_iff.mpr fun blank => ?_
  rw [isSpace_of_isBlank blank] at noSpace
  cases noSpace

/-- What is no white space is no line end. -/
theorem isLineEnd_eq_false {c : Char} (noSpace : isSpace c = false) : isLineEnd c = false := by
  refine Bool.eq_false_iff.mpr fun ends => ?_
  rw [isSpace_of_isLineEnd ends] at noSpace
  cases noSpace

/-- A text without a line end. -/
def OneLine (text : Text) : Prop := ∀ c ∈ text, isLineEnd c = false

/-- A text of blanks. -/
def Blanks (text : Text) : Prop := ∀ c ∈ text, isBlank c = true

theorem blanks_nil : Blanks [] := List.forall_mem_nil _

theorem blanks_space : Blanks [' '] := List.forall_mem_singleton.mpr rfl

theorem dropBlanks_of_stops {text : Text} (stops : Stops isBlank text) : dropBlanks text = text :=
  dropWhile_of_stops stops

/-- Blanks in front of a text make no difference to what is left of it. -/
theorem dropBlanks_blanks {blanks : Text} (blank : Blanks blanks) (rest : Text) :
    dropBlanks (blanks ++ rest) = dropBlanks rest :=
  List.dropWhile_append_of_pos blank

/-- The blanks in front of a text are dropped where it goes on with another character. -/
theorem dropBlanks_append {blanks rest : Text} (blank : Blanks blanks)
    (stops : Stops isBlank rest) : dropBlanks (blanks ++ rest) = rest := by
  rw [dropBlanks_blanks blank, dropBlanks_of_stops stops]

theorem dropBlanks_of_blanks {text : Text} (blank : Blanks text) : dropBlanks text = [] := by
  have dropped := dropBlanks_append blank (stops_nil isBlank)
  rwa [List.append_nil] at dropped

/-- A text that starts with no blank has none in front. -/
theorem Blanks.eq_nil {blanks rest : Text} (blank : Blanks blanks)
    (stops : Stops isBlank (blanks ++ rest)) : blanks = [] := by
  cases blanks with
  | nil => rfl
  | cons c later =>
      have noBlank := stops c rfl
      rw [blank c List.mem_cons_self] at noBlank
      cases noBlank

/-- A class without white space does not start a text where blanks are put in front. -/
theorem Stops.blanks {p : Char → Bool} (noSpace : ∀ c, isSpace c = true → p c = false)
    {blanks rest : Text} (blank : Blanks blanks) (stops : Stops p rest) :
    Stops p (blanks ++ rest) := by
  cases blanks with
  | nil => exact stops
  | cons c later =>
      exact stops_cons (noSpace c (isSpace_of_isBlank (blank c List.mem_cons_self))) _

/-- What is dropped are blanks. -/
theorem exists_blanks (text : Text) : ∃ blanks, Blanks blanks ∧ text = blanks ++ dropBlanks text :=
  ⟨text.takeWhile isBlank, all_takeWhile isBlank text, List.takeWhile_append_dropWhile.symm⟩

/-- No line ends between blanks. -/
theorem Blanks.oneLine {blanks : Text} (blank : Blanks blanks) : OneLine blanks := by
  intro c member
  rcases (by simpa [isBlank] using blank c member : c = ' ' ∨ c = '\t') with rfl | rfl <;> rfl

theorem blanks_of_dropBlanks {text : Text} (none : dropBlanks text = []) : Blanks text := by
  obtain ⟨blanks, blank, same⟩ := exists_blanks text
  rw [none, List.append_nil] at same
  rwa [same]

end Text

end TypedQuery
