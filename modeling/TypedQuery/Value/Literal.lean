import TypedQuery.Value.Basic
import TypedQuery.Number.Shortest

/-!
# The literal form of a value

A value is written as a literal of its type. A text stands between single quotes, with a
backslash before each backslash and each single quote. A raw piece stands between number
signs as it is, so one that contains a number sign or a line end has no literal. A number
that is whole and below `10 ^ 16` is written without a point, any other number by its
shortest text. The items of an array stand between brackets.
-/

set_option autoImplicit false

namespace TypedQuery

/-- A whole number below `10 ^ 16` is written as an integer, and zero without a sign. -/
def Double.literal : Double → Text
  | .finite negative magnitude =>
      match magnitude.whole? with
      | some n =>
          if n < Nat.pow 10 16 then Double.signText (negative && n != 0) ++ Text.ofNat n
          else (Double.finite negative magnitude).text
      | none => (Double.finite negative magnitude).text
  | x => x.text

namespace Scalar

/-- A character of a text as it stands in a literal. -/
def escapeChar (c : Char) : Text := if c = '\\' ∨ c = '\'' then ['\\', c] else [c]

/-- The literal of an item. -/
def literal : Scalar → Text
  | .str text => '\'' :: text.flatMap escapeChar ++ ['\'']
  | .num number => number.literal
  | .raw text => '#' :: text ++ ['#']

end Scalar

/-- The literal of a value. -/
def Value.literal : Value → Text
  | .scalar item => item.literal
  | .array _ items => '[' :: Text.join [',', ' '] (items.map Scalar.literal) ++ [']']

end TypedQuery
