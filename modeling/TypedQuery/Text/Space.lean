import TypedQuery.Text.Basic

/-!
# White space

The white space of Unicode decides three things: where a number token ends, what may
follow a declaration on its line, and what is trimmed from a help text. It is wider
than the blanks of `TypedQuery.Text.Basic`: it takes in the line ends, the separators
of the information group, and the spaces of fixed width.
-/

set_option autoImplicit false

namespace TypedQuery
namespace Text

/-- The runs of white space, each by its first and last code point. -/
def spaceRuns : List (Nat × Nat) :=
  [(0x09, 0x0D), (0x1C, 0x20), (0x85, 0x85), (0xA0, 0xA0), (0x1680, 0x1680), (0x2000, 0x200A),
   (0x2028, 0x2029), (0x202F, 0x202F), (0x205F, 0x205F), (0x3000, 0x3000)]

/-- A white space character. -/
def isSpace (c : Char) : Bool :=
  spaceRuns.any fun (first, last) => first ≤ c.toNat && c.toNat ≤ last

/-- A text without the white space at its two ends. -/
def strip (text : Text) : Text := dropRightWhile isSpace (text.dropWhile isSpace)

/-- A blank is white space. -/
theorem isSpace_of_isBlank {c : Char} (blank : isBlank c = true) : isSpace c = true := by
  rcases (by simpa [isBlank] using blank : c = ' ' ∨ c = '\t') with rfl | rfl <;> rfl

/-- A line end is white space. -/
theorem isSpace_of_isLineEnd {c : Char} (ends : isLineEnd c = true) : isSpace c = true := by
  rcases (by simpa [isLineEnd] using ends : c = '\r' ∨ c = '\n') with rfl | rfl <;> rfl

end Text
end TypedQuery
