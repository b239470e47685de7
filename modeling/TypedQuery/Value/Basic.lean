import TypedQuery.Number.Double
import TypedQuery.Text.Basic

/-!
# Types and values of parameters

A parameter is declared with one of three base types or with an array of one of them. A
scalar is a text, a number, or a raw piece of SQL. Texts and numbers are passed to the
database as arguments; a raw piece becomes part of the query, which is why it is a type of
its own and no text ever turns into one.

An array carries its base type and scalars. Arrays do not nest: an item is a scalar by its
type. An array may hold items of another base type than its own, since that is found out
only when it is bound; `Value.Fits` says that a value has a parameter type throughout.
-/

set_option autoImplicit false

namespace TypedQuery

/-! ## Types -/

/-- What a single item is: a text, a number, or a raw piece of SQL. -/
inductive BaseType where
  | str
  | num
  | raw
  deriving DecidableEq, Repr

namespace BaseType

/-- The keyword that names a base type in a declaration. -/
def keyword : BaseType → Text
  | .str => ['s', 't', 'r']
  | .num => ['n', 'u', 'm']
  | .raw => ['r', 'a', 'w']

/-- The base type that a keyword names. -/
def ofKeyword? (keyword : Text) : Option BaseType :=
  [BaseType.str, .num, .raw].find? fun base => base.keyword = keyword

/-- A keyword names a base type exactly when it is that type's keyword. -/
theorem ofKeyword?_eq_some_iff (keyword : Text) (base : BaseType) :
    ofKeyword? keyword = some base ↔ keyword = base.keyword := by
  constructor
  · intro named
    have found := List.find?_some named
    exact (of_decide_eq_true found).symm
  · intro same
    subst same
    cases base <;> rfl

end BaseType

/-- The type of a parameter. -/
inductive ParamType where
  | scalar (base : BaseType)
  | array (base : BaseType)
  deriving DecidableEq, Repr

namespace ParamType

/-- The base type of a parameter type. -/
def base : ParamType → BaseType
  | .scalar base => base
  | .array base => base

/-- The type of an item: of an array its base type, of a scalar the type itself. -/
def element (type : ParamType) : ParamType := .scalar type.base

/-- Whether a type is an array type. -/
def isArray : ParamType → Bool
  | .scalar _ => false
  | .array _ => true

/-- A type as it is written in a declaration. -/
def text : ParamType → Text
  | .scalar base => base.keyword
  | .array base => '[' :: base.keyword ++ [']']

end ParamType

/-! ## Values -/

/-- A single item. -/
inductive Scalar where
  | str (text : Text)
  | num (number : Double)
  | raw (text : Text)
  deriving DecidableEq

namespace Scalar

/-- The base type of an item. -/
def base : Scalar → BaseType
  | .str _ => .str
  | .num _ => .num
  | .raw _ => .raw

/-- Equality of items, where numbers are compared as numbers. -/
def agrees : Scalar → Scalar → Bool
  | .num x, .num y => x.agrees y
  | x, y => x == y

end Scalar

/-- The value of a parameter. -/
inductive Value where
  | scalar (item : Scalar)
  | array (base : BaseType) (items : List Scalar)
  deriving DecidableEq

namespace Value

/-- The type that a value shows. -/
def type : Value → ParamType
  | .scalar item => .scalar item.base
  | .array base _ => .array base

/-- The value has this type, and so has each of its items. -/
def Fits (type : ParamType) : Value → Prop
  | .scalar item => type = .scalar item.base
  | .array base items => type = .array base ∧ ∀ item ∈ items, item.base = base

/-- Equality of values, where numbers are compared as numbers. -/
def agrees : Value → Value → Bool
  | .scalar item, .scalar item' => item.agrees item'
  | .array base items, .array base' items' =>
      base == base' && items.length == items'.length &&
        (items.zip items').all fun (item, item') => item.agrees item'
  | _, _ => false

/-- The item of a value that is not an array. -/
def scalar? : Value → Option Scalar
  | .scalar item => some item
  | .array _ _ => none

/-- The array of some values, unless one of them is an array itself. -/
def arrayOf? (base : BaseType) (values : List Value) : Option Value :=
  (values.mapM scalar?).map (.array base)

end Value
end TypedQuery
