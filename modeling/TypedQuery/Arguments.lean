import TypedQuery.Declaration
import TypedQuery.Table

/-!
# Values from argument texts

A command line or a query string gives pairs of a name and a text, and a name may be given
several times. The texts are collected by name first, in one pass over the pairs (`collect`). Each
declared parameter then takes the texts collected under its name, in their order: an array one item
of each, a scalar the only one. A parameter without texts takes its default. Names that are not
declared are passed over.
-/

set_option autoImplicit false

namespace TypedQuery
namespace Arguments

/-- The texts collected under a name, of which there are none if the table does not have it. -/
def textsUnder (collected : Table (List Text)) (name : Text) : List Text :=
  (collected.get? name).getD []

/-- The table with one more pair, whose text comes after those collected under its name. -/
def collectPair (collected : Table (List Text)) (pair : Text × Text) : Table (List Text) :=
  collected.set pair.1 (textsUnder collected pair.1 ++ [pair.2])

/-- The texts of some pairs by name, collected pair by pair. -/
def collect (pairs : List (Text × Text)) : Table (List Text) := pairs.foldl collectPair .empty

/-- The item that a text stands for. -/
def item (declaration : Declaration) (text : Text) : Except Error Scalar :=
  match Literal.coerce declaration.type.base text with
  | .ok item => .ok item
  | .error cause => .error (.binding ⟨.invalidArgument text cause, declaration.name, none⟩)

/-- The items that some texts stand for, up to the first that stands for none. -/
def items (declaration : Declaration) : List Text → Except Error (List Scalar)
  | [] => .ok []
  | text :: later =>
      match item declaration text with
      | .error error => .error error
      | .ok first => (items declaration later).map (first :: ·)

/-- The value of a parameter by the texts given under its name. -/
def value (declaration : Declaration) (texts : List Text) : Except Error Value :=
  match texts, declaration.type with
  | [], _ =>
      match declaration.default with
      | some value => .ok value
      | none => .error (.binding ⟨.missing, declaration.name, none⟩)
  | texts, .array base => (items declaration texts).map (.array base)
  | [text], .scalar _ => (item declaration text).map .scalar
  | texts, .scalar _ =>
      let given := Text.join [',', ' '] texts
      .error (.binding ⟨.invalidArgument given none, declaration.name, none⟩)

/-- The declared names with their values by the collected texts, in the order of the declarations,
up to the first parameter that gets none. -/
def entries (collected : Table (List Text)) :
    List Declaration → Except Error (List (Text × Value))
  | [] => .ok []
  | declaration :: later =>
      match value declaration (textsUnder collected declaration.name) with
      | .error error => .error error
      | .ok value => (entries collected later).map ((declaration.name, value) :: ·)

/-- The values of declared parameters by pairs of a name and a text. -/
def values (declarations : List Declaration) (pairs : List (Text × Text)) :
    Except Error (Table Value) :=
  (entries (collect pairs) declarations).map Table.ofPairs

end Arguments
end TypedQuery
