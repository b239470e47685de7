import TypedQuery.Placeholder
import TypedQuery.Plan
import TypedQuery.Rendering.Keys

/-!
# Rendering

A plan becomes SQL by filling in its references and copying the rest of the body. A text or a
number is filled in by a placeholder and passed on as an argument, so nothing that it contains
is ever part of the SQL. A raw piece is filled in as it is. An array is filled in item by
item, with commas between the items and without brackets, and an empty array by nothing.

Arguments are passed on by position or under a key, as the placeholder asks. Under a key, a
parameter that the body refers to twice is passed on once.
-/

set_option autoImplicit false

namespace TypedQuery

/-- Rendered SQL with its arguments by position and by key. -/
structure Rendering where
  sql : Text
  arguments : List Scalar
  named : Table Scalar

/-- What fills in a part of a body: its text, and its arguments by position and by key. -/
structure Filling where
  sql : Text
  arguments : List Scalar
  named : List (Text × Scalar)

namespace Filling

/-- What fills in a single item under a name. -/
def ofScalar (placeholder : Placeholder) (name : Text) (item : Scalar) : Filling :=
  match item with
  | .raw text => ⟨text, [], []⟩
  | item =>
      match placeholder with
      | .named => ⟨':' :: name, [], [(name, item)]⟩
      | positional => ⟨positional.text, [item], []⟩

/-- The texts of the items of an array of raw pieces, of which the first has a given index. A
number has no text of its own. -/
def pieces : Nat → List Scalar → Except Error (List Text)
  | _, [] => .ok []
  | index, .num _ :: _ => .error (.rendering (.numberAmongPieces index))
  | index, .str text :: later => (pieces (index + 1) later).map (text :: ·)
  | index, .raw text :: later => (pieces (index + 1) later).map (text :: ·)

/-- What fills in a value under a name, and the keys that are taken then. -/
def ofValue (placeholder : Placeholder) (keys : Keys) (name : Text) (value : Value) :
    Except Error (Filling × Keys) :=
  match value with
  | .scalar item => .ok (ofScalar placeholder name item, keys)
  | .array .raw items =>
      (pieces 0 items).map fun texts => (⟨Text.join [','] texts, [], []⟩, keys)
  | .array _ items =>
      match placeholder with
      | .named =>
          let (made, keys) := keys.forArray name items.length
          .ok (⟨Text.join [','] (made.map (':' :: ·)), [], made.zip items⟩, keys)
      | positional =>
          .ok (⟨Text.join [','] (items.map fun _ => positional.text), items, []⟩, keys)

/-- What fills in a body from an offset on. The body is copied up to each reference and goes on
after it. -/
def ofBindings (placeholder : Placeholder) (body : Text) :
    Nat → Keys → List Binding → Except Error Filling
  | cursor, _, [] => .ok ⟨body.drop cursor, [], []⟩
  | cursor, keys, binding :: later =>
      match ofValue placeholder keys binding.reference.name binding.value with
      | .error error => .error error
      | .ok (here, keys) =>
          (ofBindings placeholder body binding.reference.stop keys later).map fun rest =>
            ⟨Text.slice body cursor binding.reference.start ++ here.sql ++ rest.sql,
              here.arguments ++ rest.arguments, here.named ++ rest.named⟩

end Filling

/-- The rendering of a plan with a kind of placeholder. -/
def Plan.render (plan : Plan) (placeholder : Placeholder) : Except Error Rendering :=
  let names := plan.bindings.map fun binding => binding.reference.name
  (Filling.ofBindings placeholder plan.body 0 (Keys.reserve names) plan.bindings).map fun filling =>
    ⟨filling.sql, filling.arguments, Table.ofPairs filling.named⟩

/-- The rendering of a plan as it is asked for by a placeholder and a dialect. -/
def Plan.renderAs (plan : Plan) (asked : Text) (dialect : Option Dialect) :
    Except Error Rendering :=
  match Placeholder.choose asked dialect with
  | .error error => .error error
  | .ok placeholder => plan.render placeholder

/-- The rendering of a query text with supplied values. -/
def render (marker text : Text) (values : Table Supplied) (asked : Text)
    (dialect : Option Dialect) : Except Error Rendering :=
  match Query.read marker text with
  | .error error => .error error
  | .ok query =>
      match query.bind values with
      | .error error => .error error
      | .ok plan => plan.renderAs asked dialect

end TypedQuery
