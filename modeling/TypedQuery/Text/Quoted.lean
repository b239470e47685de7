import TypedQuery.Text.Printable

/-!
# The display form of a text

Reports and the journal show a text between quotes, on one line and in printable
characters only. Single quotes are used unless the text has a single quote and no double
quote. The quote in use and the backslash are escaped by a backslash, line ends and tabs
by their letters, and any other character that is not printable by its code point in
hexadecimal.
-/

set_option autoImplicit false

namespace TypedQuery
namespace Text

/-- The lowest `width` hexadecimal digits of a number, the highest first. -/
def hexDigits (width n : Nat) : Text :=
  (List.range width).reverse.map fun place => (n / Nat.pow 16 place % 16).digitChar

/-- The escape of a character by its code point: two, four or eight hexadecimal digits, as few
as hold it. -/
def codePointEscape (c : Char) : Text :=
  if c.toNat < 0x100 then '\\' :: 'x' :: hexDigits 2 c.toNat
  else if c.toNat < 0x10000 then '\\' :: 'u' :: hexDigits 4 c.toNat
  else '\\' :: 'U' :: hexDigits 8 c.toNat

/-- What stands for a character between the quotes. -/
def displayChar (quote c : Char) : Text :=
  if c = quote ∨ c = '\\' then ['\\', c]
  else if c = '\n' then ['\\', 'n']
  else if c = '\r' then ['\\', 'r']
  else if c = '\t' then ['\\', 't']
  else if isPrintable c then [c]
  else codePointEscape c

/-- The quote that a text is shown with. -/
def displayQuote (text : Text) : Char :=
  if text.contains '\'' && !text.contains '"' then '"' else '\''

/-- A text in its display form. -/
def display (text : Text) : Text :=
  displayQuote text :: text.flatMap (displayChar (displayQuote text)) ++ [displayQuote text]

/-- A list of texts in its display form. -/
def displayList (texts : List Text) : Text :=
  '[' :: join [',', ' '] (texts.map display) ++ [']']

end Text
end TypedQuery
