import TypedQuery.Text.Basic

/-!
# Names

A parameter is called by a name: a Latin letter or an underscore, then Latin letters,
decimal digits and underscores. Names are read greedily, so what follows a name never
continues it.
-/

set_option autoImplicit false

namespace TypedQuery
namespace Text

/-- A character that may open a name. -/
def isNameStart (c : Char) : Bool := c.isAlpha || c == '_'

/-- A character that may continue a name. -/
def isNameChar (c : Char) : Bool := c.isAlphanum || c == '_'

/-- A text that is a name as a whole. -/
def isName : Text → Bool
  | [] => false
  | c :: rest => isNameStart c && rest.all isNameChar

/-- The longest name at the front of a text, and what follows it. -/
def readName? : Text → Option (Text × Text)
  | [] => none
  | c :: rest =>
      if isNameStart c then some (c :: rest.takeWhile isNameChar, rest.dropWhile isNameChar)
      else none

/-- What is read is a name, and reading it loses nothing. -/
theorem isName_of_readName? {text name rest : Text} (read : readName? text = some (name, rest)) :
    isName name = true ∧ text = name ++ rest := by
  cases text with
  | nil => simp [readName?] at read
  | cons c tail =>
      by_cases start : isNameStart c = true
      · simp only [readName?, start, if_true, Option.some.injEq, Prod.mk.injEq] at read
        obtain ⟨rfl, rfl⟩ := read
        exact ⟨by simp [isName, start], by simp⟩
      · simp [readName?, start] at read

end Text
end TypedQuery
