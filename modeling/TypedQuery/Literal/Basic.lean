import TypedQuery.Value.Basic

/-!
# Forms and faults of literals

The first character of a literal shows its form: a quote opens a text, a number sign a raw
piece, a bracket an array, and a digit, a sign or a point a number. Other characters show
no form.

A reader that cannot go on reports a fault: what is wrong, and the rest of the input from
where it is wrong. A fault becomes an error by counting how far from the front of a text
that rest begins.
-/

set_option autoImplicit false

namespace TypedQuery
namespace Literal

/-- The form that the first character of a literal shows. -/
inductive Form where
  | item (base : BaseType)
  | array
  deriving DecidableEq, Repr

namespace Form

/-- The name of a form in reports. -/
def text : Form → Text
  | .item base => base.keyword
  | .array => ['a', 'r', 'r', 'a', 'y']

/-- The form that a character opens. -/
def ofChar? (c : Char) : Option Form :=
  if c = '\'' ∨ c = '"' then some (.item .str)
  else if c = '#' then some (.item .raw)
  else if c = '[' then some .array
  else if c.isDigit ∨ c = '+' ∨ c = '-' ∨ c = '.' then some (.item .num)
  else none

/-- The form of the literal at the front of a text. -/
def next? : Text → Option Form
  | [] => none
  | c :: _ => ofChar? c

end Form

/-- What can be wrong with a literal. -/
inductive FaultKind where
  /-- The quote, number sign or bracket that opens a literal is never closed on its line. -/
  | unterminated
  /-- Something stands where an opening, a separator or the end of the literal is due. -/
  | unmatchedDelimiter
  /-- A number does not follow the form of numerals, or is beyond the greatest double. -/
  | invalidNumber
  /-- A comma comes before the bracket that closes an array. -/
  | trailingComma
  /-- The literal shows another form than its type asks for. -/
  | typeMismatch (expected : ParamType) (actual : Form)
  deriving DecidableEq, Repr

/-- A fault, and the rest of the input from where it lies. -/
structure Fault where
  kind : FaultKind
  rest : Text
  deriving DecidableEq, Repr

end Literal

/-- A literal of a text that cannot be read, with the offset of the fault. -/
structure LiteralError where
  kind : Literal.FaultKind
  text : Text
  position : Nat
  deriving DecidableEq, Repr

/-- The error at a fault that was met in a text while reading from an offset on. -/
def Literal.Fault.locate (fault : Fault) (text : Text) (start : Nat) : LiteralError :=
  ⟨fault.kind, text, start + ((text.drop start).length - fault.rest.length)⟩

end TypedQuery
