import TypedQuery.Value.Basic
import TypedQuery.Number.Rounding

/-!
# Values as a caller supplies them

A caller may supply a parameter value, or plain data that stands for one: a text for a text,
a number for a number, a list for an array. `convert?` turns plain data into a parameter
value where it can, and leaves the rest as it is, so that the type check can name it.

A text becomes a text and never a raw piece. A truth value is not a number. A list is
converted one level deep; if each item becomes a scalar the list is an array of the expected
base type, and otherwise it stays a list of the converted items. The one way to fail is an
integer beyond the range of doubles.

Data of any other type is known by the name of the type alone. It stands for no value, so it is
left as it is and named in a report.
-/

set_option autoImplicit false

namespace TypedQuery

/-- Data that a caller supplies for a parameter. -/
inductive Supplied where
  | null
  | bool (truth : Bool)
  | int (number : Int)
  | float (number : Double)
  | text (chars : Text)
  | bytes (octets : List UInt8)
  | list (items : List Supplied)
  | tuple (items : List Supplied)
  | dict (entries : List (Text × Supplied))
  | foreign (typeName : Text)
  | value (given : Value)

namespace Supplied

/-- What reports call the type of some data: of a parameter value its type as declared. -/
def typeName : Supplied → Text
  | .null => "NoneType".toList
  | .bool _ => "bool".toList
  | .int _ => "int".toList
  | .float _ => "float".toList
  | .text _ => "str".toList
  | .bytes _ => "bytes".toList
  | .list _ => "list".toList
  | .tuple _ => "tuple".toList
  | .dict _ => "dict".toList
  | .foreign typeName => typeName
  | .value given => given.type.text

/-- The scalar that some data is, if it is one. -/
def scalar? : Supplied → Option Scalar
  | .value (.scalar item) => some item
  | _ => none

/-- Data converted without looking into lists: a text or a number becomes a scalar. -/
def convertItem? : Supplied → Option Supplied
  | .text chars => some (.value (.scalar (.str chars)))
  | .int number => (Double.ofInt? number).map fun number => .value (.scalar (.num number))
  | .float number => some (.value (.scalar (.num number)))
  | other => some other

/-- The items of a list converted, as an array of the expected base type if each of them is a
scalar now. -/
def convertItems? (base : BaseType) (items : List Supplied) : Option Supplied :=
  (items.mapM convertItem?).map fun converted =>
    match converted.mapM scalar? with
    | some scalars => .value (.array base scalars)
    | none => .list converted

/-- Supplied data as a value of a parameter where it stands for one, and none if an integer is
beyond the range of doubles. -/
def convert? (expected : ParamType) : Supplied → Option Supplied
  | .list items => convertItems? expected.base items
  | .tuple items => convertItems? expected.base items
  | other => convertItem? other

end Supplied

/-- An item as plain data. A raw piece is plain text then. -/
def Scalar.plain : Scalar → Supplied
  | .str text => .text text
  | .num number => .float number
  | .raw text => .text text

/-- A value as plain data. -/
def Value.plain : Value → Supplied
  | .scalar item => item.plain
  | .array _ items => .list (items.map Scalar.plain)

end TypedQuery
