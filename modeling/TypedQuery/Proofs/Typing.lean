import TypedQuery.Proofs.Conversion
import TypedQuery.Proofs.Literals
import TypedQuery.Proofs.Splitting

/-!
# Values have their declared types

A value is read, converted and checked against a declared type, and a binding carries a value
of that type throughout: an array has the declared base type, and so has each of its items
(`Value.Fits`). Two sources give values. A literal of a type stands for a value that fits it
(`Literal.Writes.fits`), so every default of a query fits (`Query.sound_of_read`); and what
passes the type check fits (`Plan.fits_of_conform`).

Binding keeps a table of the names that are resolved. What the table holds is what the parameter
of that name is resolved to, and each step only adds to it. So all bindings take their values from
one table, the last one (`Plan.bindAll_resolved`), references to one name have one value, and every
value fits the declaration of its name (`Plan.Resolves.typed`).
-/

set_option autoImplicit false

namespace TypedQuery

/-- A value has the type that it fits. -/
theorem Value.type_of_fits {value : Value} {type : ParamType} (fits : value.Fits type) :
    value.type = type := by
  cases value with
  | scalar item => exact fits.symm
  | array base items => exact fits.1.symm

/-! ## Literals -/

namespace Literal

/-- A literal of a type stands for a value that fits it. -/
theorem Writes.fits {type : ParamType} {text : Text} {value : Value}
    (writes : Writes type text value) : value.Fits type := by
  cases writes with
  | scalar => rfl
  | empty => exact ⟨rfl, List.forall_mem_nil _⟩
  | items _ writes => exact ⟨rfl, fun item member => (writes.exists_item item member).1⟩

end Literal

/-! ## Declarations -/

/-- A default, if there is one, fits the declared type. -/
def Declaration.Sound (declaration : Declaration) : Prop :=
  ∀ value, declaration.default = some value → value.Fits declaration.type

namespace Declaration

theorem writes_of_readDefault {type : ParamType} {input rest : Text} {value : Value}
    (taken : readDefault type input = .ok (some value, rest)) :
    ∃ literal, Literal.Writes type literal value := by
  unfold readDefault at taken
  split at taken
  · split at taken
    · next first =>
        obtain ⟨same, _⟩ := Prod.mk.inj (Except.ok.inj taken)
        obtain rfl := Option.some.inj same
        obtain ⟨literal, writes, _⟩ := Literal.writes_of_read first
        exact ⟨literal, writes⟩
    · cases taken
  · cases (Prod.mk.inj (Except.ok.inj taken)).1

/-- The default of a declaration has a literal of the declared type. -/
theorem Declares.default_writes {marker line : Text} {declaration : Declaration}
    (declares : Declares marker line declaration) {value : Value}
    (found : declaration.default = some value) :
    ∃ literal, Literal.Writes declaration.type literal value := by
  obtain ⟨rest, _, taken⟩ := declares
  obtain ⟨type, _, default, _, help, _, given, _, same⟩ := read_eq_ok_iff.mp taken
  rw [same] at found ⊢
  rw [show default = some value from found] at given
  exact writes_of_readDefault given

theorem Declares.sound {marker line : Text} {declaration : Declaration}
    (declares : Declares marker line declaration) : declaration.Sound := by
  intro value found
  obtain ⟨_, writes⟩ := declares.default_writes found
  exact writes.fits

end Declaration

/-! ## Queries -/

/-- Every default of a query fits its declared type. -/
def Query.Sound (query : Query) : Prop :=
  ∀ declaration ∈ query.declarations, declaration.Sound

/-- Every default of a query has a literal of the declared type. -/
theorem Query.default_writes {marker text : Text} {query : Query}
    (taken : Query.read marker text = .ok query) {declaration : Declaration}
    (member : declaration ∈ query.declarations) {value : Value}
    (found : declaration.default = some value) :
    ∃ literal, Literal.Writes declaration.type literal value := by
  obtain ⟨header, first, rfl⟩ := map_eq_ok_iff.mp taken
  obtain ⟨_, _, _, declared, _⟩ := Header.ofLines_eq_ok_iff.mp first
  obtain ⟨_, _, declares⟩ := declared.exists_line member
  exact declares.default_writes found

theorem Query.sound_of_read {marker text : Text} {query : Query}
    (taken : Query.read marker text = .ok query) : query.Sound := by
  intro declaration member value found
  obtain ⟨_, writes⟩ := Query.default_writes taken member found
  exact writes.fits

/-- No two parameters of a query have one name. -/
theorem Query.distinct_of_read {marker text : Text} {query : Query}
    (taken : Query.read marker text = .ok query) : query.names.Nodup := by
  obtain ⟨header, first, rfl⟩ := map_eq_ok_iff.mp taken
  obtain ⟨_, _, _, declared, _⟩ := Header.ofLines_eq_ok_iff.mp first
  exact declared.distinct List.nodup_nil

/-! ## The type check -/

namespace Plan

/-- What passes the type check fits the type that is asked for. -/
theorem fits_of_conform {expected : ParamType} {given : Supplied} {value : Value}
    (checked : conform expected given = .ok value) : value.Fits expected := by
  cases conform_eq_ok_iff.mp checked with
  | scalar fits => exact congrArg ParamType.scalar fits.symm
  | array fit | list fit => exact ⟨rfl, fit⟩

theorem fits_of_resolve {declaration : Declaration} (sound : declaration.Sound)
    {values : Table Supplied} {position : Nat} {value : Value}
    (resolved : resolve declaration values position = .ok value) :
    value.Fits declaration.type := by
  unfold resolve at resolved
  split at resolved
  · split at resolved
    · cases resolved
    · split at resolved
      · next passed =>
          obtain rfl := Except.ok.inj resolved
          exact fits_of_conform passed
      · cases resolved
  · split at resolved
    · next given =>
        obtain rfl := Except.ok.inj resolved
        exact sound _ given
    · cases resolved

/-! ## Bindings -/

/-- Every value of a table is what the parameter of its name is resolved to. -/
def Resolves (query : Query) (values : Table Supplied) (resolved : Table Value) : Prop :=
  ∀ name value, resolved.get? name = some value →
    ∃ declaration position, query.declaration? name = some declaration ∧
      resolve declaration values position = .ok value

/-- Every value of a table fits the type that the query declares for its name. -/
def Typed (query : Query) (resolved : Table Value) : Prop :=
  ∀ name value, resolved.get? name = some value →
    ∃ declaration, query.declaration? name = some declaration ∧ value.Fits declaration.type

/-- A table has all the entries of another one. -/
def Extends (larger smaller : Table Value) : Prop :=
  ∀ name value, smaller.get? name = some value → larger.get? name = some value

theorem resolves_empty (query : Query) (values : Table Supplied) :
    Resolves query values .empty :=
  fun _ _ found => by cases found

/-- One step: a parameter is resolved, and its value is set. -/
theorem Resolves.set {query : Query} {values : Table Supplied} {resolved : Table Value}
    (known : Resolves query values resolved) {name : Text} {declaration : Declaration}
    (declared : query.declaration? name = some declaration) {position : Nat} {value : Value}
    (outcome : resolve declaration values position = .ok value) :
    Resolves query values (resolved.set name value) := by
  intro other found get
  rw [Table.get?_set] at get
  split at get
  · next same =>
      obtain rfl := Option.some.inj get
      rw [same]
      exact ⟨declaration, position, declared, outcome⟩
  · exact known other found get

/-- What parameters are resolved to fits their types. -/
theorem Resolves.typed {query : Query} (sound : query.Sound) {values : Table Supplied}
    {resolved : Table Value} (known : Resolves query values resolved) : Typed query resolved := by
  intro name value get
  obtain ⟨declaration, position, declared, outcome⟩ := known name value get
  exact ⟨declaration, declared,
    fits_of_resolve (sound declaration (List.mem_of_find?_eq_some declared)) outcome⟩

/-- A whole run: bindings stand for the references one by one and in order, and take their
values from one table of resolved parameters. -/
theorem bindAll_resolved {query : Query} {values : Table Supplied} {references : List Reference}
    {resolved : Table Value} (known : Resolves query values resolved) {bindings : List Binding}
    (bound : bindAll query values resolved references = .ok bindings) :
    bindings.map Binding.reference = references ∧
      ∃ last : Table Value, Resolves query values last ∧ Extends last resolved ∧
        ∀ binding ∈ bindings, last.get? binding.reference.name = some binding.value := by
  induction references generalizing resolved bindings with
  | nil =>
      obtain rfl := Except.ok.inj bound
      exact ⟨rfl, resolved, known, fun _ _ found => found, fun _ member => by cases member⟩
  | cons reference later ih =>
      unfold bindAll at bound
      split at bound
      · cases bound
      · next declaration declared =>
          split at bound
          · next value old =>
              obtain ⟨rest, below, rfl⟩ := map_eq_ok_iff.mp bound
              obtain ⟨order, last, resolves, larger, fromLast⟩ := ih known below
              refine ⟨congrArg (reference :: ·) order, last, resolves, larger, ?_⟩
              intro binding member
              rcases List.mem_cons.mp member with rfl | member
              · exact larger _ _ old
              · exact fromLast binding member
          · next new =>
              split at bound
              · cases bound
              · next value outcome =>
                  obtain ⟨rest, below, rfl⟩ := map_eq_ok_iff.mp bound
                  obtain ⟨order, last, resolves, larger, fromLast⟩ :=
                    ih (known.set declared outcome) below
                  have kept : Extends last resolved := by
                    intro name found get
                    refine larger name found ?_
                    rw [Table.get?_set]
                    split
                    · next same =>
                        rw [same, new] at get
                        cases get
                    · exact get
                  refine ⟨congrArg (reference :: ·) order, last, resolves, kept, ?_⟩
                  intro binding member
                  rcases List.mem_cons.mp member with rfl | member
                  · exact larger _ _ (by rw [Table.get?_set, if_pos rfl])
                  · exact fromLast binding member

end Plan

/-- The bindings of a plan stand for the references of its query, and take their values from
one table of resolved parameters. -/
theorem Query.bind_resolves {query : Query} {values : Table Supplied} {plan : Plan}
    (bound : query.bind values = .ok plan) :
    plan.body = query.body ∧ plan.bindings.map Binding.reference = query.references ∧
      ∃ last : Table Value, Plan.Resolves query values last ∧
        ∀ binding ∈ plan.bindings, last.get? binding.reference.name = some binding.value := by
  obtain ⟨bindings, outcome, rfl⟩ := map_eq_ok_iff.mp bound
  obtain ⟨order, last, resolves, _, fromLast⟩ :=
    Plan.bindAll_resolved (Plan.resolves_empty query values) outcome
  exact ⟨rfl, order, last, resolves, fromLast⟩

/-- The table that the bindings of a plan take their values from is typed. -/
theorem Query.bind_resolved {marker text : Text} {query : Query}
    (read : Query.read marker text = .ok query) {values : Table Supplied} {plan : Plan}
    (bound : query.bind values = .ok plan) :
    plan.body = query.body ∧ plan.bindings.map Binding.reference = query.references ∧
      ∃ last : Table Value, Plan.Typed query last ∧
        ∀ binding ∈ plan.bindings, last.get? binding.reference.name = some binding.value := by
  obtain ⟨whole, order, last, resolves, fromLast⟩ := Query.bind_resolves bound
  exact ⟨whole, order, last, resolves.typed (Query.sound_of_read read), fromLast⟩

end TypedQuery
