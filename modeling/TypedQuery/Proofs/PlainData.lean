import Mathlib.Logic.Relation
import TypedQuery.Proofs.ArgumentBinding
import TypedQuery.Proofs.FirstFault

/-!
# Plain data in place of values

A caller may supply a parameter value or plain data that stands for one. It makes no difference
which of the two it is. A value that holds no raw piece is what its plain data is converted to
(`Value.comesBack_iff`); a raw piece would come back as a text. Data that has been converted is
settled: converting it again leaves it as it is, and raw pieces stand in it where they stood before
(`Supplied.settles_of_convert`).

For binding this says that supplied data may be exchanged for what it is converted to, and that the
default of a parameter without data may be supplied for it, as a value or as plain data
(`Query.Restates`). One such exchange keeps the outcome, and so does any number of them
(`Query.takes_plain_or_value`).
-/

set_option autoImplicit false

namespace TypedQuery

/-! ## Values and their plain data -/

theorem Double.agrees_self {number : Double} : number.agrees number = true ↔ number ≠ .nan := by
  cases number <;> simp [agrees]

theorem Scalar.agrees_self {item : Scalar} : item.agrees item = true ↔ item ≠ .num .nan := by
  cases item <;> simp [agrees, Double.agrees_self]

/-- An item as it comes back from plain data, where a raw piece is a text like any other. -/
def Scalar.reread : Scalar → Scalar
  | .raw text => .str text
  | item => item

namespace Scalar

theorem reread_eq_self_iff {item : Scalar} : item.reread = item ↔ item.base ≠ .raw := by
  cases item <;> simp [reread, base]

theorem convertItem?_plain (item : Scalar) :
    item.plain.convertItem? = some (.value (.scalar item.reread)) := by
  cases item <;> rfl

end Scalar

/-- A list of optional results succeeds with the results of all of them. -/
theorem mapM_eq_some_iff {α β : Type} {f : α → Option β} {list : List α} {results : List β} :
    list.mapM f = some results ↔ List.Forall₂ (fun a b => f a = some b) list results := by
  induction list generalizing results with
  | nil =>
      rw [List.forall₂_nil_left_iff]
      exact ⟨fun passed => (Option.some.inj passed).symm, fun none => none ▸ rfl⟩
  | cons first later ih =>
      simp only [List.mapM_cons, List.forall₂_cons_left_iff, Option.bind_eq_bind,
        Option.bind_eq_some_iff, ih, Option.pure_def, Option.some.injEq]
      constructor
      · rintro ⟨result, here, rest, below, rfl⟩
        exact ⟨result, rest, here, below, rfl⟩
      · rintro ⟨result, rest, here, below, rfl⟩
        exact ⟨result, here, rest, below, rfl⟩

namespace Supplied

/-- Items that are all scalars become an array. -/
theorem mapM_scalar?_eq_some_iff {items : List Supplied} {scalars : List Scalar} :
    items.mapM scalar? = some scalars ↔ items = scalars.map fun item => .value (.scalar item) := by
  simp only [mapM_eq_some_iff, scalar?_eq_some_iff]
  constructor
  · intro each
    induction each with
    | nil => rfl
    | cons here _ ih => rw [List.map_cons, ← ih, here]
  · rintro rfl
    exact List.forall₂_map_left_iff.mpr (List.forall₂_same.mpr fun _ _ => rfl)

end Supplied

namespace Value

/-- The items of a value, of which a scalar is the only one. -/
def items : Value → List Scalar
  | .scalar item => [item]
  | .array _ items => items

/-- A value as it comes back from plain data. -/
def reread : Value → Value
  | .scalar item => .scalar item.reread
  | .array base items => .array base (items.map Scalar.reread)

theorem convert?_plain (value : Value) :
    value.plain.convert? value.type = some (.value value.reread) := by
  cases value with
  | scalar item => cases item <;> rfl
  | array base items =>
      have each : (items.map Scalar.plain).mapM Supplied.convertItem? =
          some ((items.map Scalar.reread).map fun item => .value (.scalar item)) := by
        simp only [mapM_eq_some_iff, List.forall₂_map_left_iff, List.forall₂_map_right_iff,
          Scalar.convertItem?_plain]
        exact List.forall₂_same.mpr fun _ _ => rfl
      show Supplied.convertItems? base (items.map Scalar.plain) = _
      rw [Supplied.convertItems?, each, Option.map_some,
        Supplied.mapM_scalar?_eq_some_iff.mpr rfl]
      rfl

theorem reread_eq_self_iff {value : Value} :
    value.reread = value ↔ ∀ item ∈ value.items, item.base ≠ .raw := by
  cases value with
  | scalar item => simp [reread, items, Scalar.reread_eq_self_iff]
  | array base items =>
      have same := @List.map_inj_left _ _ items Scalar.reread id
      rw [List.map_id] at same
      simp [reread, Value.items, same, Scalar.reread_eq_self_iff]

/-- A value equals itself as a value, unless an item of it is no number. -/
theorem agrees_self {value : Value} :
    value.agrees value = true ↔ ∀ item ∈ value.items, item ≠ .num .nan := by
  cases value with
  | scalar item => simp [agrees, items, Scalar.agrees_self]
  | array base items => simp [agrees, Value.items, ← Scalar.agrees_self, List.zip]

/-- No item of a value is raw if its type is not and the items fit the type. -/
theorem Fits.base_ne_raw {value : Value} {type : ParamType} (fits : value.Fits type)
    (notRaw : type.base ≠ .raw) : ∀ item ∈ value.items, item.base ≠ .raw := by
  cases value with
  | scalar item =>
      obtain rfl : type = .scalar item.base := fits
      exact List.forall_mem_singleton.mpr notRaw
  | array base items =>
      obtain ⟨rfl, bases⟩ := fits
      exact fun item member => bases item member ▸ notRaw

/-- A value comes back from its plain data: that is converted to just this value, which is equal to
it as a value too, unless an item is no number. -/
structure ComesBack (value : Value) : Prop where
  same : value.plain.convert? value.type = some (.value value)
  agrees : value.agrees value = true ∨ .num .nan ∈ value.items

/-- **A value comes back from its plain data** if no item is raw, and only then. -/
theorem comesBack_iff {value : Value} :
    value.ComesBack ↔ ∀ item ∈ value.items, item.base ≠ .raw := by
  rw [← reread_eq_self_iff]
  constructor
  · intro back
    exact Supplied.value.inj (Option.some.inj (value.convert?_plain.symm.trans back.same))
  · intro same
    refine ⟨by rw [convert?_plain, same], ?_⟩
    by_cases isNan : .num .nan ∈ value.items
    · exact .inr isNan
    · exact .inl (agrees_self.mpr fun item member isItem => isNan (isItem ▸ member))

end Value

/-! ## Converted data -/

namespace Supplied

/-- A raw piece stands in some data at a place. The place in a list is the index of an item and then
the place in that item. -/
inductive RawAt (text : Text) : List Nat → Supplied → Prop
  | here : RawAt text [] (.value (.scalar (.raw text)))
  | array {base : BaseType} {items : List Scalar} {index : Nat}
      (item : items[index]? = some (.raw text)) : RawAt text [index] (.value (.array base items))
  | list {items : List Supplied} {index : Nat} {given : Supplied} {place : List Nat}
      (item : items[index]? = some given) (inside : RawAt text place given) :
      RawAt text (index :: place) (.list items)
  | tuple {items : List Supplied} {index : Nat} {given : Supplied} {place : List Nat}
      (item : items[index]? = some given) (inside : RawAt text place given) :
      RawAt text (index :: place) (.tuple items)
  | dict {entries : List (Text × Supplied)} {index : Nat} {name : Text} {given : Supplied}
      {place : List Nat} (entry : entries[index]? = some (name, given))
      (inside : RawAt text place given) : RawAt text (index :: place) (.dict entries)

variable {text : Text} {place : List Nat}

theorem rawAt_tuple_iff {items : List Supplied} :
    RawAt text place (.tuple items) ↔ RawAt text place (.list items) := by
  constructor
  · rintro (_ | _ | _ | ⟨item, inside⟩)
    exact .list item inside
  · rintro (_ | _ | ⟨item, inside⟩)
    exact .tuple item inside

/-- An array holds its raw pieces where the list of its items does. -/
theorem rawAt_array_iff {base : BaseType} {items : List Scalar} :
    RawAt text place (.value (.array base items)) ↔
      RawAt text place (.list (items.map fun item => .value (.scalar item))) := by
  constructor
  · rintro (_ | item)
    refine .list ?_ .here
    rw [List.getElem?_map, item]
    rfl
  · rintro (_ | _ | ⟨item, inside⟩)
    rw [List.getElem?_map] at item
    obtain ⟨scalar, found, rfl⟩ := Option.map_eq_some_iff.mp item
    cases inside with
    | here => exact .array found

/-- Lists hold raw pieces at the same places if their items do. -/
theorem rawAt_list_congr {first second : List Supplied}
    (same : List.Forall₂ (fun a b => ∀ place, RawAt text place b ↔ RawAt text place a)
      first second) : RawAt text place (.list second) ↔ RawAt text place (.list first) := by
  have length := same.length_eq
  constructor
  · rintro (_ | _ | @⟨_, index, _, rest, item, inside⟩)
    obtain ⟨within, rfl⟩ := List.getElem?_eq_some_iff.mp item
    have here := same.get (length ▸ within) within
    exact .list (List.getElem?_eq_getElem (length ▸ within)) ((here rest).mp inside)
  · rintro (_ | _ | @⟨_, index, _, rest, item, inside⟩)
    obtain ⟨within, rfl⟩ := List.getElem?_eq_some_iff.mp item
    have here := same.get within (length ▸ within)
    exact .list (List.getElem?_eq_getElem (length ▸ within)) ((here rest).mpr inside)

/-- Data that has been converted: it stays as it is when it is converted again, to a value of
whichever type, and its raw pieces stand where they stood in the data before. -/
structure Settles (given converted : Supplied) : Prop where
  again : ∀ type, converted.convert? type = some converted
  raw : ∀ text place, RawAt text place converted ↔ RawAt text place given

/-- What an item is converted to is settled as an item. -/
theorem convertItem?_again {given converted : Supplied}
    (converts : given.convertItem? = some converted) : converted.convertItem? = some converted := by
  cases given with
  | int number =>
      obtain ⟨_, _, rfl⟩ := Option.map_eq_some_iff.mp converts
      rfl
  | _ =>
      obtain rfl := Option.some.inj converts
      rfl

/-- A text or a number becomes a scalar that is not raw, and other items stay as they are. -/
theorem rawAt_iff_of_convertItem {given converted : Supplied}
    (converts : given.convertItem? = some converted) :
    RawAt text place converted ↔ RawAt text place given := by
  cases given with
  | text | float =>
      obtain rfl := Option.some.inj converts
      exact iff_of_false nofun nofun
  | int number =>
      obtain ⟨_, _, rfl⟩ := Option.map_eq_some_iff.mp converts
      exact iff_of_false nofun nofun
  | null | bool | bytes | list | tuple | dict | foreign | value =>
      obtain rfl := Option.some.inj converts
      rfl

theorem settles_of_convertItems {base : BaseType} {items : List Supplied} {converted : Supplied}
    (converts : convertItems? base items = some converted) : Settles (.list items) converted := by
  obtain ⟨found, all, rfl⟩ := Option.map_eq_some_iff.mp converts
  have each := mapM_eq_some_iff.mp all
  have raw (text : Text) (place : List Nat) :
      RawAt text place (.list found) ↔ RawAt text place (.list items) :=
    rawAt_list_congr (each.imp fun _ _ here _ => rawAt_iff_of_convertItem here)
  split
  · next scalars isArray =>
      obtain rfl := mapM_scalar?_eq_some_iff.mp isArray
      refine ⟨fun _ => rfl, fun text place => ?_⟩
      rw [rawAt_array_iff, raw]
  · next isList =>
      refine ⟨fun type => ?_, raw⟩
      -- Each item is settled by itself, so the items are the same and some is no scalar again.
      have again : found.mapM convertItem? = some found := by
        rw [mapM_eq_some_iff, List.forall₂_same]
        intro item member
        obtain ⟨given, _, here⟩ := exists_of_mapM_eq_some all member
        exact convertItem?_again here
      show convertItems? type.base found = _
      rw [convertItems?, again, Option.map_some, isList]

/-- **Converted data is settled.** -/
theorem settles_of_convert {type : ParamType} {given converted : Supplied}
    (converts : given.convert? type = some converted) : Settles given converted := by
  cases given with
  | list items => exact settles_of_convertItems converts
  | tuple items =>
      have settles := settles_of_convertItems converts
      exact ⟨settles.again, fun text place => by rw [settles.raw, rawAt_tuple_iff]⟩
  | int number =>
      refine ⟨?_, fun _ _ => rawAt_iff_of_convertItem converts⟩
      obtain ⟨_, _, rfl⟩ := Option.map_eq_some_iff.mp converts
      exact fun _ => rfl
  | null | bool | float | text | bytes | dict | foreign | value =>
      refine ⟨?_, fun _ _ => rawAt_iff_of_convertItem converts⟩
      obtain rfl := Option.some.inj converts
      exact fun _ => rfl

end Supplied

/-! ## Binding -/

theorem Table.get?_set_self {α : Type} (table : Table α) (name : Text) (value : α) :
    (table.set name value).get? name = some value := by
  rw [get?_set, if_pos rfl]

namespace Plan

variable {declaration : Declaration} {values others : Table Supplied} {given : Supplied}

/-- A parameter is resolved in the same way from data that is converted to the same. -/
theorem resolve_eq_of_converts {given' converted : Supplied}
    (supplied : values.get? declaration.name = some given)
    (supplied' : others.get? declaration.name = some given')
    (converts : given.convert? declaration.type = some converted)
    (converts' : given'.convert? declaration.type = some converted) (position : Nat) :
    resolve declaration values position = resolve declaration others position := by
  simp only [resolve, supplied, supplied', converts, converts']

/-- A parameter is resolved to its default from data that is converted to the default. -/
theorem resolve_eq_of_default {value : Value} (sound : declaration.Sound)
    (default : declaration.default = some value) (absent : values.get? declaration.name = none)
    (supplied : others.get? declaration.name = some given)
    (converts : given.convert? declaration.type = some (.value value)) (position : Nat) :
    resolve declaration values position = resolve declaration others position := by
  rw [resolve_of_default absent default]
  simp only [resolve, supplied, converts, conform_of_fits (sound value default)]

end Plan

namespace Query

/-- One exchange of what is supplied for a query. -/
inductive Restates (query : Query) : Table Supplied → Table Supplied → Prop
  /-- Data is exchanged for what it is converted to. -/
  | converted {values : Table Supplied} {name : Text} {declaration : Declaration}
      {given converted : Supplied} (declared : query.declaration? name = some declaration)
      (supplied : values.get? name = some given)
      (converts : given.convert? declaration.type = some converted) :
      Restates query values (values.set name converted)
  /-- The default of a parameter is supplied. -/
  | default {values : Table Supplied} {name : Text} {declaration : Declaration} {value : Value}
      (declared : query.declaration? name = some declaration) (absent : values.get? name = none)
      (default : declaration.default = some value) :
      Restates query values (values.set name (.value value))
  /-- A default that is not raw is supplied as plain data. -/
  | plainDefault {values : Table Supplied} {name : Text} {declaration : Declaration} {value : Value}
      (declared : query.declaration? name = some declaration) (absent : values.get? name = none)
      (default : declaration.default = some value) (notRaw : value.type.base ≠ .raw) :
      Restates query values (values.set name value.plain)
  /-- A name that is not declared may have any data. -/
  | undeclared {values : Table Supplied} {name : Text} {given : Supplied}
      (undeclared : name ∉ query.names) : Restates query values (values.set name given)

variable {query : Query} {values others : Table Supplied}

/-- Other data for a declared name makes no difference if its parameter is resolved in the same
way. -/
theorem bindOne_set {name : Text} {declaration : Declaration} {given : Supplied}
    (declared : query.declaration? name = some declaration)
    (same : ∀ position, Plan.resolve declaration values position =
      Plan.resolve declaration (values.set name given) position) (reference : Reference) :
    Plan.bindOne query values reference =
      Plan.bindOne query (values.set name given) reference := by
  by_cases here : reference.name = name
  · simp only [Plan.bindOne, here, declared, same]
  · apply Eq.symm
    apply bindOne_congr
    intro _
    rw [Table.get?_set, if_neg here]

/-- One exchange keeps what each reference is bound to. -/
theorem Restates.bindOne (sound : query.Sound) (restates : query.Restates values others)
    (reference : Reference) :
    Plan.bindOne query values reference = Plan.bindOne query others reference := by
  cases restates with
  | converted declared supplied converts =>
      obtain ⟨_, rfl⟩ := mem_of_declaration? declared
      apply bindOne_set declared
      apply Plan.resolve_eq_of_converts supplied (Table.get?_set_self _ _ _) converts
      exact (Supplied.settles_of_convert converts).again _
  | default declared absent default =>
      obtain ⟨member, rfl⟩ := mem_of_declaration? declared
      apply bindOne_set declared
      apply Plan.resolve_eq_of_default (sound _ member) default absent (Table.get?_set_self _ _ _)
      rfl
  | @plainDefault _ declaration value declared absent default notRaw =>
      obtain ⟨member, rfl⟩ := mem_of_declaration? declared
      have fits := sound declaration member value default
      have type := Value.type_of_fits fits
      have back := Value.comesBack_iff.mpr (Value.Fits.base_ne_raw (type ▸ fits) notRaw)
      apply bindOne_set declared
      apply Plan.resolve_eq_of_default (sound _ member) default absent (Table.get?_set_self _ _ _)
      exact type ▸ back.same
  | undeclared undeclared =>
      apply Eq.symm
      apply bindOne_congr
      intro member
      rw [Table.get?_set, if_neg]
      rintro rfl
      exact undeclared member

/-- One exchange keeps the outcome of binding. -/
theorem Restates.bind (sound : query.Sound) (restates : query.Restates values others) :
    query.bind values = query.bind others :=
  bind_congr rfl rfl fun reference _ => restates.bindOne sound reference

/-- Any number of exchanges keep the outcome of binding. -/
theorem bind_of_restates (sound : query.Sound)
    (restates : Relation.EqvGen query.Restates values others) :
    query.bind values = query.bind others := by
  induction restates with
  | rel _ _ restates => exact restates.bind sound
  | refl _ => rfl
  | symm _ _ _ ih => exact ih.symm
  | trans _ _ _ _ _ first second => exact first.trans second

/-- **Plain data and values are interchangeable.** A value that is not raw comes back from its plain
data, data that has been converted is settled, and binding has one outcome, however the supplied
data is exchanged for what it is converted to and defaults are supplied. -/
theorem takes_plain_or_value {marker text : Text} {strict : Bool}
    (parsed : Query.parse marker strict text = .ok query) :
    (∀ value : Value, value.Fits value.type → value.type.base ≠ .raw → value.ComesBack) ∧
    (∀ (type : ParamType) (given converted : Supplied),
      given.convert? type = some converted → given.Settles converted) ∧
    ∀ values others, Relation.EqvGen query.Restates values others →
      query.bind values = query.bind others := by
  refine ⟨fun value fits notRaw => ?_, fun _ _ _ => Supplied.settles_of_convert, fun _ _ => ?_⟩
  · exact Value.comesBack_iff.mpr (fits.base_ne_raw notRaw)
  · exact bind_of_restates (sound_of_read (read_of_parse parsed))

/-- A tuple is exchanged for an array, and two defaults are supplied, one of them as plain data.
Beside it a number that is no number comes back, and a list that stays one is settled. -/
theorem takes_plain_or_value_mixed :
    let text := "--? ids: [str]\n--? by: [raw] = [#id#]\n".toList ++
      "--? note: str = 'it\\'s'\n@ids @by @note".toList
    let values : Table Supplied :=
      .ofPairs [("ids".toList, .tuple [.text ['a'], .value (.scalar (.str ['b']))])]
    let others := ((values.set "ids".toList (.value (.array .str [.str ['a'], .str ['b']]))).set
      "by".toList (.value (.array .raw [.raw "id".toList]))).set "note".toList (.text "it's".toList)
    (Value.array .num [.num .nan, .num (.infinite true)]).ComesBack ∧
      Supplied.Settles (.list [.text ['a'], .null, .value (.scalar (.raw ['b']))])
        (.list [.value (.scalar (.str ['a'])), .null, .value (.scalar (.raw ['b']))]) ∧
      ∃ query, Query.parse ['-', '-', '?'] true text = .ok query ∧
        query.bind values = query.bind others := by
  intro text values others
  have declares : (Query.parse ['-', '-', '?'] true text).map (fun query =>
      ["ids".toList, "by".toList, "note".toList].map query.declaration?) =
        .ok [some ⟨"ids".toList, .array .str, none, "ids".toList, 0⟩,
          some ⟨"by".toList, .array .raw, some (.array .raw [.raw "id".toList]), "by".toList, 1⟩,
          some ⟨"note".toList, .scalar .str, some (.scalar (.str "it's".toList)), "note".toList,
            2⟩] := by
    decide +kernel
  cases parsed : Query.parse ['-', '-', '?'] true text with
  | error error =>
      rw [parsed] at declares
      cases declares
  | ok query =>
      rw [parsed] at declares
      have each := Except.ok.inj declares
      simp only [List.map, List.cons.injEq, and_true] at each
      obtain ⟨ids, order, note⟩ := each
      obtain ⟨back, settles, binds⟩ := takes_plain_or_value parsed
      refine ⟨back _ ⟨rfl, ?_⟩ (by decide), settles (.array .str) _ _ rfl, query, rfl, ?_⟩
      · simp [Scalar.base]
      · apply binds
        refine .trans _ _ _ (.rel _ _ (.converted ids rfl rfl)) ?_
        refine .trans _ _ _ (.rel _ _ (.default order rfl rfl)) ?_
        exact .rel _ _ (.plainDefault note rfl rfl (by decide))

end Query
end TypedQuery
