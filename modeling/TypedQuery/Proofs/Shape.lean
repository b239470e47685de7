import TypedQuery.Proofs.Agreement
import TypedQuery.Rendering.Basic

/-!
# What a rendering looks at

A text or a number that is supplied for a parameter is passed to the database as an argument,
and nothing else of the rendered query depends on it. This is said of two runs. Data has the
same shape (`Supplied.Alike`) if it is of the same kind and, for lists, if the items are;
only raw pieces have to be equal. Two runs with data of the same shape end in the same error,
or in the same SQL with as many arguments under the same keys
(`agree_render`).

Shape goes through every step of a run. Conversion keeps it and gives both sides one type name,
so reports agree as well (`convert?_alike`). The type check either refuses both sides for one
reason, or makes values that fill in a reference alike (`conform_agree`): arrays of raw pieces
are equal then, because the check has looked at every item. References are resolved in step
(`bindAll_agree`), and filling in such values gives the same text and the same keys
(`ofBindings_agree`).
-/

set_option autoImplicit false

namespace TypedQuery

/-! ## Shapes -/

namespace Scalar

/-- Items of the same shape: two texts, two numbers, or one raw piece twice. -/
inductive Alike : Scalar → Scalar → Prop where
  | str (text text' : Text) : Alike (.str text) (.str text')
  | num (number number' : Double) : Alike (.num number) (.num number')
  | raw (text : Text) : Alike (.raw text) (.raw text)

theorem Alike.refl : ∀ item : Scalar, item.Alike item
  | .str text => .str text text
  | .num number => .num number number
  | .raw text => .raw text

theorem Alike.base_eq {item item' : Scalar} (alike : item.Alike item') :
    item.base = item'.base := by
  cases alike <;> rfl

/-- Raw pieces of the same shape are equal. -/
theorem Alike.eq_of_raw {item item' : Scalar} (alike : item.Alike item')
    (isRaw : item.base = .raw) : item = item' := by
  cases alike with
  | str => cases isRaw
  | num => cases isRaw
  | raw => rfl

end Scalar

namespace Value

/-- Values of the same shape: items of the same shape, in arrays made for one base type. -/
inductive Alike : Value → Value → Prop where
  | scalar {item item' : Scalar} (alike : item.Alike item') : Alike (.scalar item) (.scalar item')
  | array (base : BaseType) {items items' : List Scalar}
      (alike : List.Forall₂ Scalar.Alike items items') :
      Alike (.array base items) (.array base items')

theorem Alike.refl : ∀ value : Value, value.Alike value
  | .scalar item => .scalar (.refl item)
  | .array base _ => .array base (List.forall₂_same.mpr fun item _ => .refl item)

theorem Alike.type_eq {value value' : Value} (alike : value.Alike value') :
    value.type = value'.type := by
  cases alike with
  | scalar alike => exact congrArg ParamType.scalar alike.base_eq
  | array => rfl

/-- Values that fill in a reference alike: they have the same shape, and arrays of raw pieces,
whose items become part of the query, are equal. -/
structure Interchangeable (value value' : Value) : Prop where
  alike : value.Alike value'
  same : value.type = .array .raw → value = value'

theorem Interchangeable.refl (value : Value) : value.Interchangeable value :=
  ⟨.refl value, fun _ => rfl⟩

end Value

namespace Supplied

/-- Plain data that is a number, and no integer beyond the range of doubles. -/
inductive Number : Supplied → Prop where
  | int {number : Int} (within : (Double.ofInt? number).isSome) : Number (.int number)
  | float (number : Double) : Number (.float number)

/-- Data of the same shape: of one kind, and item by item where it is a list. Only raw pieces
have to be equal. -/
inductive Alike : Supplied → Supplied → Prop where
  | null : Alike .null .null
  | bool (truth truth' : Bool) : Alike (.bool truth) (.bool truth')
  | number {given given' : Supplied} (first : given.Number) (second : given'.Number) :
      Alike given given'
  | text (chars chars' : Text) : Alike (.text chars) (.text chars')
  | bytes (octets octets' : List UInt8) : Alike (.bytes octets) (.bytes octets')
  | list {items items' : List Supplied} (alike : List.Forall₂ Alike items items') :
      Alike (.list items) (.list items')
  | tuple {items items' : List Supplied} (alike : List.Forall₂ Alike items items') :
      Alike (.tuple items) (.tuple items')
  | dict (entries entries' : List (Text × Supplied)) : Alike (.dict entries) (.dict entries')
  | foreign (typeName : Text) : Alike (.foreign typeName) (.foreign typeName)
  | value {value value' : Value} (alike : value.Alike value') : Alike (.value value) (.value value')

/-- Data of the same shape that reports call by one name. -/
structure Converted (given given' : Supplied) : Prop where
  alike : given.Alike given'
  typeName : given.typeName = given'.typeName

end Supplied

/-! ## Conversion -/

namespace Supplied

theorem scalar?_alike {given given' : Supplied} (alike : given.Alike given') :
    Option.Rel Scalar.Alike given.scalar? given'.scalar? := by
  cases alike with
  | number first second => cases first <;> cases second <;> exact .none
  | value alike =>
      cases alike with
      | scalar alike => exact .some alike
      | array => exact .none
  | _ => exact .none

theorem Number.convertItem? {given : Supplied} (isNumber : given.Number) :
    ∃ number, given.convertItem? = some (.value (.scalar (.num number))) := by
  cases isNumber with
  | int within =>
      obtain ⟨number, found⟩ := Option.isSome_iff_exists.mp within
      exact ⟨number, by rw [Supplied.convertItem?, found, Option.map_some]⟩
  | float number => exact ⟨number, rfl⟩

theorem convertItem?_alike {given given' : Supplied} (alike : given.Alike given') :
    Option.Rel Converted given.convertItem? given'.convertItem? := by
  cases alike with
  | number first second =>
      obtain ⟨number, found⟩ := first.convertItem?
      obtain ⟨number', found'⟩ := second.convertItem?
      rw [found, found']
      exact .some ⟨.value (.scalar (.num number number')), rfl⟩
  | text chars chars' => exact .some ⟨.value (.scalar (.str chars chars')), rfl⟩
  | null => exact .some ⟨.null, rfl⟩
  | bool truth truth' => exact .some ⟨.bool truth truth', rfl⟩
  | bytes octets octets' => exact .some ⟨.bytes octets octets', rfl⟩
  | list alike => exact .some ⟨.list alike, rfl⟩
  | tuple alike => exact .some ⟨.tuple alike, rfl⟩
  | dict entries entries' => exact .some ⟨.dict entries entries', rfl⟩
  | foreign typeName => exact .some ⟨.foreign typeName, rfl⟩
  | value alike => exact .some ⟨.value alike, congrArg ParamType.text alike.type_eq⟩

theorem convertItems?_alike (base : BaseType) {items items' : List Supplied}
    (alike : List.Forall₂ Alike items items') :
    Option.Rel Converted (convertItems? base items) (convertItems? base items') := by
  have converted := rel_mapM alike fun _ _ => convertItem?_alike
  unfold convertItems?
  generalize items.mapM convertItem? = found at converted
  generalize items'.mapM convertItem? = found' at converted
  cases converted with
  | none => exact .none
  | @some items items' converted =>
      have alike : List.Forall₂ Alike items items' := converted.imp fun _ _ both => both.alike
      have scalars := rel_mapM alike fun _ _ => scalar?_alike
      simp only [Option.map_some]
      generalize items.mapM scalar? = found at scalars
      generalize items'.mapM scalar? = found' at scalars
      cases scalars with
      | none => exact .some ⟨.list alike, rfl⟩
      | some scalars => exact .some ⟨.value (.array base scalars), rfl⟩

/-- Conversion keeps the shape of data, and reports call both results by one name. -/
theorem convert?_alike (expected : ParamType) {given given' : Supplied}
    (alike : given.Alike given') :
    Option.Rel Converted (given.convert? expected) (given'.convert? expected) := by
  cases alike with
  | list alike => exact convertItems?_alike expected.base alike
  | tuple alike => exact convertItems?_alike expected.base alike
  | number first second =>
      have item := convertItem?_alike (.number first second)
      cases first <;> cases second <;> exact item
  | null => exact convertItem?_alike .null
  | bool truth truth' => exact convertItem?_alike (.bool truth truth')
  | text chars chars' => exact convertItem?_alike (.text chars chars')
  | bytes octets octets' => exact convertItem?_alike (.bytes octets octets')
  | dict entries entries' => exact convertItem?_alike (.dict entries entries')
  | foreign typeName => exact convertItem?_alike (.foreign typeName)
  | value alike => exact convertItem?_alike (.value alike)

end Supplied

/-! ## The type check -/

namespace Plan

theorem items?_alike {given given' : Supplied} (alike : given.Alike given') :
    Option.Rel (List.Forall₂ Supplied.Alike) (items? given) (items? given') := by
  cases alike with
  | number first second => cases first <;> cases second <;> exact .none
  | list alike => exact .some alike
  | value alike =>
      cases alike with
      | scalar => exact .none
      | array base alike =>
          refine .some (List.forall₂_map_left_iff.mpr (List.forall₂_map_right_iff.mpr ?_))
          exact alike.imp fun _ _ alike => .value (.scalar alike)
  | _ => exact .none

theorem madeFor_alike (asked : BaseType) {given given' : Supplied} (alike : given.Alike given') :
    madeFor asked given = madeFor asked given' := by
  cases alike with
  | number first second => cases first <;> cases second <;> rfl
  | value alike => cases alike <;> rfl
  | _ => rfl

/-- The items of two lists of the same shape pass the check together, or fail it at one
index. Items that pass are of the base type that is asked for. -/
theorem scalarsOf_agree (base : BaseType) {items items' : List Supplied}
    (alike : List.Forall₂ Supplied.Alike items items') :
    Agree (List.Forall₂ fun item item' => item.Alike item' ∧ item.base = base)
      (scalarsOf base items) (scalarsOf base items') := by
  induction alike with
  | nil => exact .ok .nil
  | @cons given given' later later' head _ ih =>
      have items := Supplied.scalar?_alike head
      unfold scalarsOf
      generalize given.scalar? = found at items
      generalize given'.scalar? = found' at items
      generalize scalarsOf base later = rest at ih
      generalize scalarsOf base later' = rest' at ih
      cases items with
      | none => exact .error 0
      | @some item item' alike =>
          simp only [← alike.base_eq]
          by_cases asked : item.base = base
          · rw [if_pos asked, if_pos asked]
            cases ih with
            | ok related => exact .ok (.cons ⟨alike, asked⟩ related)
            | error index => exact .error (index + 1)
          · rw [if_neg asked, if_neg asked]
            exact .error 0

/-- Items that pass the check for raw pieces are equal if they are of the same shape. -/
theorem eq_of_alike_raw {items items' : List Scalar}
    (alike : List.Forall₂ (fun item item' => item.Alike item' ∧ item.base = .raw) items items') :
    items = items' := by
  induction alike with
  | nil => rfl
  | cons head _ ih => rw [head.1.eq_of_raw head.2, ih]

/-- Converted data of the same shape is refused for one reason, or becomes values that fill in
a reference alike. -/
theorem conform_agree (expected : ParamType) {given given' : Supplied}
    (converted : given.Converted given') :
    Agree Value.Interchangeable (conform expected given) (conform expected given') := by
  obtain ⟨alike, typeName⟩ := converted
  cases expected with
  | scalar base =>
      have items := Supplied.scalar?_alike alike
      unfold conform
      rw [← typeName]
      generalize given.scalar? = found at items
      generalize given'.scalar? = found' at items
      cases items with
      | none => exact .error _
      | @some item item' alike =>
          simp only [← alike.base_eq]
          split
          · exact .ok ⟨.scalar alike, fun isArray => by cases isArray⟩
          · exact .error _
  | array base =>
      have lists := items?_alike alike
      simp only [conform]
      rw [← typeName, ← madeFor_alike base alike]
      generalize items? given = found at lists
      generalize items? given' = found' at lists
      cases lists with
      | none => exact .error _
      | @some items items' alike =>
          have scalars := scalarsOf_agree base alike
          simp only
          generalize scalarsOf base items = checked at scalars
          generalize scalarsOf base items' = checked' at scalars
          cases scalars with
          | error index => exact .error _
          | ok related =>
              simp only
              split
              · refine .ok ⟨.array base (related.imp fun _ _ both => both.1), fun isRaw => ?_⟩
                obtain rfl : base = .raw := ParamType.array.inj isRaw
                rw [eq_of_alike_raw related]
              · exact .error _

/-! ## Resolving references -/

/-- A parameter is resolved alike from values of the same shape. -/
theorem resolve_agree (declaration : Declaration) {values values' : Table Supplied}
    (alike : values.Related Supplied.Alike values') (position : Nat) :
    Agree Value.Interchangeable (resolve declaration values position)
      (resolve declaration values' position) := by
  have supplied := alike declaration.name
  unfold resolve
  generalize values.get? declaration.name = found at supplied
  generalize values'.get? declaration.name = found' at supplied
  cases supplied with
  | none =>
      cases declaration.default with
      | none => exact .error _
      | some value => exact .ok (.refl value)
  | @some given given' alike =>
      have conversion := Supplied.convert?_alike declaration.type alike
      simp only
      generalize given.convert? declaration.type = found at conversion
      generalize given'.convert? declaration.type = found' at conversion
      cases conversion with
      | none => exact .error _
      | @some given given' converted =>
          have checked := conform_agree declaration.type converted
          simp only
          generalize conform declaration.type given = outcome at checked
          generalize conform declaration.type given' = outcome' at checked
          cases checked with
          | ok related => exact .ok related
          | error fault => exact .error _

end Plan

/-- Bindings of one reference to values that fill it in alike. -/
structure Binding.Interchangeable (binding binding' : Binding) : Prop where
  reference : binding.reference = binding'.reference
  value : binding.value.Interchangeable binding'.value

namespace Plan

/-- From values of the same shape, and names that are resolved alike already, references are
resolved in step. -/
theorem bindAll_agree (query : Query) {values values' : Table Supplied}
    (alike : values.Related Supplied.Alike values') (references : List Reference)
    {resolved resolved' : Table Value}
    (known : resolved.Related Value.Interchangeable resolved') :
    Agree (List.Forall₂ Binding.Interchangeable) (bindAll query values resolved references)
      (bindAll query values' resolved' references) := by
  induction references generalizing resolved resolved' with
  | nil => exact .ok .nil
  | cons reference later ih =>
      unfold bindAll
      cases query.declaration? reference.name with
      | none => exact .error _
      | some declaration =>
          have earlier := known reference.name
          simp only
          generalize resolved.get? reference.name = found at earlier
          generalize resolved'.get? reference.name = found' at earlier
          cases earlier with
          | some related => exact (ih known).map fun _ _ rest => .cons ⟨rfl, related⟩ rest
          | none =>
              have outcome := resolve_agree declaration alike reference.start
              simp only
              generalize resolve declaration values reference.start = first at outcome
              generalize resolve declaration values' reference.start = second at outcome
              cases outcome with
              | error error => exact .error _
              | ok related =>
                  exact (ih (known.set reference.name related)).map fun _ _ rest =>
                    .cons ⟨rfl, related⟩ rest

end Plan

/-! ## Filling in -/

/-- Fillings with one text, as many arguments, and the same keys. -/
structure Filling.Alike (filling filling' : Filling) : Prop where
  sql : filling.sql = filling'.sql
  arguments : filling.arguments.length = filling'.arguments.length
  named : filling.named.map Prod.fst = filling'.named.map Prod.fst

namespace Filling

theorem ofScalar_alike (placeholder : Placeholder) (name : Text) {item item' : Scalar}
    (alike : item.Alike item') :
    (ofScalar placeholder name item).Alike (ofScalar placeholder name item') := by
  cases alike with
  | str => cases placeholder <;> exact ⟨rfl, rfl, rfl⟩
  | num => cases placeholder <;> exact ⟨rfl, rfl, rfl⟩
  | raw => exact ⟨rfl, rfl, rfl⟩

/-- Arguments of one number take the same part of some keys. -/
theorem map_fst_zip_congr (keys : List Text) {items items' : List Scalar}
    (same : items.length = items'.length) :
    (keys.zip items).map Prod.fst = (keys.zip items').map Prod.fst := by
  induction keys generalizing items items' with
  | nil => rfl
  | cons key keys ih =>
      cases items with
      | nil => rw [List.length_eq_zero_iff.mp same.symm]
      | cons item items =>
          cases items' with
          | nil => cases same
          | cons item' items' =>
              exact congrArg (key :: ·) (ih (Nat.succ.inj same))

/-- Values that fill in a reference alike make the same text and take the same keys. -/
theorem ofValue_agree (placeholder : Placeholder) (keys : Keys) (name : Text)
    {value value' : Value} (related : value.Interchangeable value') :
    Agree (fun made made' => made.1.Alike made'.1 ∧ made.2 = made'.2)
      (ofValue placeholder keys name value) (ofValue placeholder keys name value') := by
  obtain ⟨alike, same⟩ := related
  cases alike with
  | scalar alike => exact .ok ⟨ofScalar_alike placeholder name alike, rfl⟩
  | @array base items items' alike =>
      have count := alike.length_eq
      cases base with
      | raw =>
          obtain ⟨_, rfl⟩ := Value.array.inj (same rfl)
          simp only [ofValue]
          generalize pieces 0 items = outcome
          cases outcome with
          | error error => exact .error error
          | ok texts => exact .ok ⟨⟨rfl, rfl, rfl⟩, rfl⟩
      | str | num =>
          cases placeholder with
          | question | percent =>
              refine .ok ⟨⟨?_, count, rfl⟩, rfl⟩
              simp only [List.map_const', count]
          | named =>
              unfold ofValue
              simp only [count]
              exact .ok ⟨⟨rfl, rfl, map_fst_zip_congr _ count⟩, rfl⟩

/-- Bindings that are alike one by one fill in a body alike. -/
theorem ofBindings_agree (placeholder : Placeholder) (body : Text)
    {bindings bindings' : List Binding}
    (related : List.Forall₂ Binding.Interchangeable bindings bindings') (cursor : Nat)
    (keys : Keys) :
    Agree Alike (ofBindings placeholder body cursor keys bindings)
      (ofBindings placeholder body cursor keys bindings') := by
  induction related generalizing cursor keys with
  | nil => exact .ok ⟨rfl, rfl, rfl⟩
  | @cons binding binding' _ _ head _ ih =>
      have here := ofValue_agree placeholder keys binding.reference.name head.value
      unfold ofBindings
      rw [← head.reference]
      generalize ofValue placeholder keys binding.reference.name binding.value = made at here
      generalize ofValue placeholder keys binding.reference.name binding'.value = made' at here
      cases here with
      | error error => exact .error error
      | @ok made made' both =>
          obtain ⟨filling, keys⟩ := made
          obtain ⟨filling', keys'⟩ := made'
          obtain ⟨alike, rfl⟩ := both
          refine (ih binding.reference.stop keys).map fun _ _ rest => ?_
          refine ⟨?_, ?_, ?_⟩
          · rw [alike.sql, rest.sql]
          · rw [List.length_append, List.length_append, alike.arguments, rest.arguments]
          · rw [List.map_append, List.map_append, alike.named, rest.named]

end Filling

/-! ## Two runs -/

/-- Renderings that differ in the values of arguments only. -/
structure Rendering.Alike (rendering rendering' : Rendering) : Prop where
  sql : rendering.sql = rendering'.sql
  arguments : rendering.arguments.length = rendering'.arguments.length
  named : rendering.named.names = rendering'.named.names

theorem Plan.render_agree (placeholder : Placeholder) (body : Text)
    {bindings bindings' : List Binding}
    (related : List.Forall₂ Binding.Interchangeable bindings bindings') :
    Agree Rendering.Alike (Plan.render ⟨body, bindings⟩ placeholder)
      (Plan.render ⟨body, bindings'⟩ placeholder) := by
  have names : (bindings.map fun binding => binding.reference.name) =
      bindings'.map fun binding => binding.reference.name := by
    induction related with
    | nil => rfl
    | cons head _ ih => rw [List.map_cons, List.map_cons, head.reference, ih]
  unfold Plan.render
  simp only [names]
  refine (Filling.ofBindings_agree placeholder body related 0 _).map fun _ _ alike => ?_
  exact ⟨alike.sql, alike.arguments, Table.names_setAll_congr alike.named rfl⟩

/-- **A rendering looks only at the shape of what is supplied.** Two runs over one query text,
asked for in the same way, with values of the same shape under the same names, end in the same
error or in the same SQL with as many arguments under the same keys. -/
theorem agree_render (marker text asked : Text) (dialect : Option Dialect)
    {values values' : Table Supplied} (alike : values.Related Supplied.Alike values') :
    Agree Rendering.Alike (render marker text values asked dialect)
      (render marker text values' asked dialect) := by
  unfold render
  cases Query.read marker text with
  | error error => exact .error error
  | ok query =>
      have bound := Plan.bindAll_agree query alike query.references
        (Table.related_empty (R := Value.Interchangeable))
      simp only [Query.bind]
      generalize Plan.bindAll query values .empty query.references = outcome at bound
      generalize Plan.bindAll query values' .empty query.references = outcome' at bound
      cases bound with
      | error error => exact .error error
      | ok related =>
          simp only [Except.map, Plan.renderAs]
          cases Placeholder.choose asked dialect with
          | error error => exact .error error
          | ok placeholder => exact Plan.render_agree placeholder query.body related

/-- A text that tries to end its literal, and numbers of both kinds, beside tame values of the
same shape: the raw piece alone shows in the SQL. -/
theorem agree_render_hostile :
    let text := "--? a: str\n--? i: [num]\n--? r: raw\nselect @a, @i @r".toList
    let hostile : Table Supplied := .ofPairs [(['a'], .text "' or '1'='1".toList),
      (['i'], .list [.int (-1), .float .nan]), (['r'], .value (.scalar (.raw "limit 1".toList)))]
    let tame : Table Supplied := .ofPairs [(['a'], .text "b".toList),
      (['i'], .list [.float (.infinite false), .int 7]),
      (['r'], .value (.scalar (.raw "limit 1".toList)))]
    hostile.Related Supplied.Alike tame ∧
      ((render ['-', '-', '?'] text hostile ['?'] none).map Rendering.sql).toOption =
        some "select ?, ?,? limit 1".toList ∧
      Agree Rendering.Alike (render ['-', '-', '?'] text hostile ['?'] none)
        (render ['-', '-', '?'] text tame ['?'] none) := by
  intro text hostile tame
  have alike : hostile.Related Supplied.Alike tame := by
    refine Table.related_ofPairs (.cons ⟨rfl, .text _ _⟩ (.cons ⟨rfl, .list ?_⟩
      (.cons ⟨rfl, .value (.scalar (.raw _))⟩ .nil)))
    exact .cons (.number (.int (by decide +kernel)) (.float _))
      (.cons (.number (.float _) (.int (by decide +kernel))) .nil)
  exact ⟨alike, by decide +kernel, agree_render _ _ _ _ alike⟩

end TypedQuery
