import TypedQuery.Literal.Basic

/-!
# Errors

An error is a cause with the data that a report needs. It is about a literal, about the
declaration on a line, about a value for a parameter, or about the way in which a query is
to be rendered. Two more errors come from data of a caller: an integer beyond the range of
doubles, and an array inside an array. How an error is worded is decided in
`TypedQuery.Report`.
-/

set_option autoImplicit false

namespace TypedQuery

/-- What can be wrong with a declaration. -/
inductive DeclarationFault where
  /-- An earlier line declares the same name. -/
  | duplicate
  /-- The keyword names no base type. -/
  | unknownType (keyword : Text)
  /-- The type is an array of arrays. -/
  | nestedArray
  /-- The default is a literal of another form than the type asks for. -/
  | defaultMismatch (cause : LiteralError)
  /-- The line does not follow the form of declarations. -/
  | malformed
  /-- The body never refers to the parameter. -/
  | unused
  deriving DecidableEq, Repr

/-- A declaration that cannot be accepted, with the number of its line and, where the line
itself is at fault, the line. -/
structure DeclarationError where
  fault : DeclarationFault
  name : Text
  lineNumber : Nat
  line : Option Text
  deriving DecidableEq, Repr

/-- What can be wrong with the value of a parameter. -/
inductive BindingFault where
  /-- The body refers to a name that is not declared. -/
  | undefinedReference
  /-- There is neither a value nor a default. -/
  | missing
  /-- The value has another type than the declared one. -/
  | typeMismatch (expected : ParamType) (actual : Text)
  /-- An item of an array is not of the declared base type. -/
  | elementMismatch (index : Nat)
  /-- A text given as an argument does not stand for a value. -/
  | invalidArgument (text : Text) (cause : Option LiteralError)
  deriving DecidableEq, Repr

/-- A parameter that gets no value, with the offset of the reference that asks for one, if it
is a reference that does. -/
structure BindingError where
  fault : BindingFault
  name : Text
  position : Option Nat
  deriving DecidableEq, Repr

/-- What can be wrong with a request to render. -/
inductive RenderingError where
  /-- Both a dialect and a placeholder other than the default one are given. -/
  | placeholderBesideDialect
  /-- There is no such placeholder. -/
  | unsupportedPlaceholder (placeholder : Text)
  /-- An item of an array of raw pieces is a number. -/
  | numberAmongPieces (index : Nat)
  deriving DecidableEq, Repr

/-- An error. -/
inductive Error where
  | literal (error : LiteralError)
  | declaration (error : DeclarationError)
  | binding (error : BindingError)
  | rendering (error : RenderingError)
  /-- An integer is beyond the range of doubles. -/
  | integerTooLarge
  /-- An array holds an array. -/
  | arrayInArray
  deriving DecidableEq, Repr

end TypedQuery
