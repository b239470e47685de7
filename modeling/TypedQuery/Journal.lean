import TypedQuery.Rendering.Basic
import TypedQuery.Text.Quoted

/-!
# The journal

Reading, binding and rendering note what they have done. A journal entry is made when a step
is complete: how many declarations a header has, how many references a body has, which
supplied values were not asked for, and which SQL was rendered. A step that fails makes no
entry, and the entries before it remain.

A `Journal` is the outcome of a step together with its entries. The outcome is the one that
the step has without a journal (`outcome_query`, `outcome_render`).
-/

set_option autoImplicit false

namespace TypedQuery

/-- An entry of the journal. -/
inductive Event where
  | declarations (count : Nat)
  | references (count : Nat)
  | ignored (names : List Text)
  | rendered (sql : Text)
  deriving DecidableEq, Repr

/-- The wording of an entry. -/
def Event.message : Event → Text
  | .declarations count =>
      "parsed ".toList ++ Text.ofNat count ++ " parameter declarations".toList
  | .references count => "found ".toList ++ Text.ofNat count ++ " references".toList
  | .ignored names =>
      "ignoring values for undeclared parameters: ".toList ++ Text.displayList names
  | .rendered sql => "rendered sql: ".toList ++ sql

/-- The outcome of a step with the entries that it made. -/
structure Journal (α : Type) where
  events : List Event
  outcome : Except Error α

namespace Journal

variable {α β : Type}

/-- An outcome without entries. -/
def silent (outcome : Except Error α) : Journal α := ⟨[], outcome⟩

/-- An outcome with the entries that its success makes. -/
def noting (outcome : Except Error α) (events : α → List Event) : Journal α :=
  match outcome with
  | .ok result => ⟨events result, outcome⟩
  | .error _ => ⟨[], outcome⟩

/-- A step and then another one on its result. -/
def andThen (first : Journal α) (next : α → Journal β) : Journal β :=
  match first.outcome with
  | .ok result => ⟨first.events ++ (next result).events, (next result).outcome⟩
  | .error error => ⟨first.events, .error error⟩

/-- Reading a header, with its entry. -/
def header (marker text : Text) : Journal Header :=
  noting (Header.read marker text) fun header => [.declarations header.declarations.length]

/-- Finding the references of a body, with its entry. -/
def references (body : Text) : Journal (List Reference) :=
  noting (.ok (Body.references body)) fun references => [.references references.length]

/-- Reading a query, with its entries. Those of a query that is refused remain. -/
def query (marker : Text) (strict : Bool) (text : Text) : Journal Query :=
  (header marker text).andThen fun header =>
    (references header.body).andThen fun references =>
      let query : Query := ⟨header.declarations, header.body, references⟩
      silent (if strict then query.check else .ok query)

/-- Binding values to a query, with its entry. It is made before any reference is resolved. -/
def plan (query : Query) (values : Table Supplied) : Journal Plan :=
  let names := query.ignoredNames values
  ⟨if names.isEmpty then [] else [.ignored names], query.bind values⟩

/-- Rendering a plan, with its entry. -/
def rendering (plan : Plan) (asked : Text) (dialect : Option Dialect) : Journal Rendering :=
  noting (plan.renderAs asked dialect) fun rendering => [.rendered rendering.sql]

/-- Rendering a query text, with all entries. -/
def render (marker text : Text) (values : Table Supplied) (asked : Text)
    (dialect : Option Dialect) : Journal Rendering :=
  (query marker false text).andThen fun query =>
    (plan query values).andThen fun plan => rendering plan asked dialect

theorem outcome_noting (outcome : Except Error α) (events : α → List Event) :
    (noting outcome events).outcome = outcome := by
  cases outcome <;> rfl

/-- The journal of reading a query has the outcome of reading it. -/
theorem outcome_query (marker : Text) (strict : Bool) (text : Text) :
    (query marker strict text).outcome = Query.parse marker strict text := by
  unfold query andThen header Query.parse Query.read
  rw [outcome_noting]
  cases Header.read marker text with
  | error error => rfl
  | ok header => rfl

/-- The journal of rendering a query text has the outcome of rendering it. -/
theorem outcome_render (marker text : Text) (values : Table Supplied) (asked : Text)
    (dialect : Option Dialect) :
    (render marker text values asked dialect).outcome =
      TypedQuery.render marker text values asked dialect := by
  have read : (query marker false text).outcome = Query.read marker text := by
    rw [outcome_query]
    unfold Query.parse
    cases Query.read marker text <;> rfl
  unfold render TypedQuery.render andThen
  rw [read]
  cases Query.read marker text with
  | error error => rfl
  | ok query =>
      simp only [plan]
      cases query.bind values with
      | error error => rfl
      | ok plan => exact outcome_noting _ _

end Journal
end TypedQuery
