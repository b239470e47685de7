import TypedQuery.Query
import TypedQuery.Table
import TypedQuery.Value.Supplied

/-!
# Plans

A plan is a body in which every reference has a value. A supplied value is converted and then
checked against the declared type, a parameter without one takes its default, and without
either the reference is at fault. References are resolved in the order of the body, so the
first one at fault decides the error, and each name is resolved once: later references to it
take the value found first.

The check looks at every item of an array, whether the array came as one or as a list, and
names the first item of another base type. An array whose items all fit is still refused if
it was made for another base type.
-/

set_option autoImplicit false

namespace TypedQuery

/-- A reference and its value. -/
structure Binding where
  reference : Reference
  value : Value
  deriving DecidableEq

/-- A body and the values of its references, in the order of the references. -/
structure Plan where
  body : Text
  bindings : List Binding
  deriving DecidableEq

namespace Plan

/-! ## The type check -/

/-- The items of a list as scalars of a base type, or the index of the first that is none. -/
def scalarsOf (base : BaseType) : List Supplied → Except Nat (List Scalar)
  | [] => .ok []
  | given :: later =>
      match given.scalar? with
      | none => .error 0
      | some item =>
          if item.base = base then
            match scalarsOf base later with
            | .ok items => .ok (item :: items)
            | .error index => .error (index + 1)
          else .error 0

/-- The items of what can stand for an array. -/
def items? : Supplied → Option (List Supplied)
  | .value (.array _ items) => some (items.map fun item => .value (.scalar item))
  | .list items => some items
  | _ => none

/-- The base type that an array was made for. A list is made for the one that is asked for. -/
def madeFor (asked : BaseType) : Supplied → BaseType
  | .value (.array base _) => base
  | _ => asked

/-- Converted data as a value of the declared type, or what is wrong with it. -/
def conform (expected : ParamType) (given : Supplied) : Except BindingFault Value :=
  match expected with
  | .scalar base =>
      match given.scalar? with
      | some item =>
          if item.base = base then .ok (.scalar item)
          else .error (.typeMismatch expected given.typeName)
      | none => .error (.typeMismatch expected given.typeName)
  | .array base =>
      match items? given with
      | none => .error (.typeMismatch expected given.typeName)
      | some items =>
          match scalarsOf base items with
          | .error index => .error (.elementMismatch index)
          | .ok scalars =>
              if madeFor base given = base then .ok (.array base scalars)
              else .error (.typeMismatch expected given.typeName)

/-! ## Resolving references -/

/-- The value of a declared parameter for a reference at an offset. -/
def resolve (declaration : Declaration) (values : Table Supplied) (position : Nat) :
    Except Error Value :=
  match values.get? declaration.name with
  | some given =>
      match given.convert? declaration.type with
      | none => .error .integerTooLarge
      | some converted =>
          match conform declaration.type converted with
          | .ok value => .ok value
          | .error fault => .error (.binding ⟨fault, declaration.name, some position⟩)
  | none =>
      match declaration.default with
      | some value => .ok value
      | none => .error (.binding ⟨.missing, declaration.name, some position⟩)

/-- The bindings of references, given the names that are resolved already. -/
def bindAll (query : Query) (values : Table Supplied) (resolved : Table Value) :
    List Reference → Except Error (List Binding)
  | [] => .ok []
  | reference :: later =>
      match query.declaration? reference.name with
      | none => .error (.binding ⟨.undefinedReference, reference.name, some reference.start⟩)
      | some declaration =>
          match resolved.get? reference.name with
          | some value =>
              (bindAll query values resolved later).map (⟨reference, value⟩ :: ·)
          | none =>
              match resolve declaration values reference.start with
              | .error error => .error error
              | .ok value =>
                  (bindAll query values (resolved.set reference.name value) later).map
                    (⟨reference, value⟩ :: ·)

end Plan

/-- The plan of a query with supplied values. -/
def Query.bind (query : Query) (values : Table Supplied) : Except Error Plan :=
  (Plan.bindAll query values .empty query.references).map fun bindings => ⟨query.body, bindings⟩

/-- The names of supplied values that the query does not declare. -/
def Query.ignoredNames (query : Query) (values : Table Supplied) : List Text :=
  values.names.filter (· ∉ query.names)

end TypedQuery
