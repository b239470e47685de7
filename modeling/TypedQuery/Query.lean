import TypedQuery.Header
import TypedQuery.Body

/-!
# Queries

A query is a header of declarations and a body with its references. Reading a query checks
the header alone; a query whose body and header do not speak of the same names is still a
query. `check` refuses it: the first reference in the body to a name that is not declared is
at fault, and without one the first declaration that the body never refers to.
-/

set_option autoImplicit false

namespace TypedQuery

/-- Declarations, and a body with its references. -/
structure Query where
  declarations : List Declaration
  body : Text
  references : List Reference
  deriving DecidableEq

/-- The different texts of a list, in the order in which each first occurs. -/
def firstOccurrences : List Text → List Text
  | [] => []
  | text :: later => text :: (firstOccurrences later).filter (· ≠ text)

namespace Query

/-- The query of a header. -/
def ofHeader (header : Header) : Query :=
  ⟨header.declarations, header.body, Body.references header.body⟩

/-- The query of a text whose declarations open with a marker. -/
def read (marker text : Text) : Except Error Query := (Header.read marker text).map ofHeader

/-- The declared names, in the order of their declarations. -/
def names (query : Query) : List Text := query.declarations.map Declaration.name

/-- The declaration of a name. -/
def declaration? (query : Query) (name : Text) : Option Declaration :=
  query.declarations.find? fun declaration => declaration.name = name

/-- The names that the body refers to, in the order in which each first occurs. -/
def referencedNames (query : Query) : List Text :=
  firstOccurrences (query.references.map Reference.name)

/-- The declarations that the body never refers to. -/
def unused (query : Query) : List Declaration :=
  query.declarations.filter fun declaration => declaration.name ∉ query.referencedNames

/-- The query, if its body and its header speak of the same names. Since a header starts at the
first line of a text, the line of a declaration is found by its order. -/
def check (query : Query) : Except Error Query :=
  match query.references.find? fun reference => reference.name ∉ query.names with
  | some reference =>
      .error (.binding ⟨.undefinedReference, reference.name, some reference.start⟩)
  | none =>
      match query.unused with
      | declaration :: _ =>
          .error (.declaration ⟨.unused, declaration.name, declaration.order + 1, none⟩)
      | [] => .ok query

/-- The query of a text, checked if reading is to be strict. -/
def parse (marker : Text) (strict : Bool) (text : Text) : Except Error Query :=
  match read marker text with
  | .error error => .error error
  | .ok query => if strict then query.check else .ok query

end Query
end TypedQuery
