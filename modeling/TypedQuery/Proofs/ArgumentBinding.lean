import TypedQuery.Arguments
import TypedQuery.Proofs.Resolution
import TypedQuery.Proofs.Soundness
import TypedQuery.Proofs.Tables

/-!
# Values from argument texts fit the binder

Argument texts are collected by name in one pass over the pairs. What is collected under a name is
the list of the texts that are given under it, in their order (`Arguments.textsUnder_collect`).

The texts are turned into values by the declarations, and binding checks values against the same
declarations. The two never disagree (`Query.takes_arguments`): there is one value for each
declared name, in the order of the declarations, and it has the declared type, so binding refuses
nothing but a reference to a name that is not declared.

A parameter without argument texts gets its default here, and it would get the same default when it
is bound without a value. So the values of the names that were given are enough.
-/

set_option autoImplicit false

namespace TypedQuery

/-! ## The texts of a name -/

namespace Arguments

/-- The texts given under a name, in their order. -/
def textsOf (pairs : List (Text × Text)) (name : Text) : List Text :=
  (pairs.filter fun pair => pair.1 = name).map Prod.snd

theorem textsOf_append (front back : List (Text × Text)) (name : Text) :
    textsOf (front ++ back) name = textsOf front name ++ textsOf back name := by
  rw [textsOf, List.filter_append, List.map_append]
  rfl

theorem textsOf_cons (pair : Text × Text) (later : List (Text × Text)) (name : Text) :
    textsOf (pair :: later) name =
      if pair.1 = name then pair.2 :: textsOf later name else textsOf later name := by
  by_cases same : pair.1 = name <;> simp [textsOf, same]

theorem textsOf_eq_nil {pairs : List (Text × Text)} {name : Text}
    (absent : name ∉ pairs.map Prod.fst) : textsOf pairs name = [] := by
  rw [textsOf, List.map_eq_nil_iff, List.filter_eq_nil_iff]
  intro pair member same
  exact absent (of_decide_eq_true same ▸ List.mem_map_of_mem member)

/-- One pair gives its text to its own name and nothing to others. -/
theorem textsUnder_collectPair (collected : Table (List Text)) (pair : Text × Text)
    (name : Text) : textsUnder (collectPair collected pair) name =
      if pair.1 = name then textsUnder collected name ++ [pair.2]
      else textsUnder collected name := by
  rw [textsUnder, collectPair, Table.get?_set]
  by_cases same : pair.1 = name
  · rw [if_pos same, if_pos same.symm, same]
    rfl
  · rw [if_neg same, if_neg (Ne.symm same)]
    rfl

/-- Pairs are collected behind what a table holds already. -/
theorem textsUnder_foldl (pairs : List (Text × Text)) (collected : Table (List Text))
    (name : Text) : textsUnder (pairs.foldl collectPair collected) name =
      textsUnder collected name ++ textsOf pairs name := by
  -- Each pair changes the table that the later ones are collected in.
  induction pairs generalizing collected with
  | nil => exact (List.append_nil _).symm
  | cons pair later ih =>
      rw [List.foldl_cons, ih, textsUnder_collectPair, textsOf_cons]
      split
      · exact (List.append_cons _ _ _).symm
      · rfl

/-- **The texts collected under a name are those given under it**, in their order. -/
theorem textsUnder_collect (pairs : List (Text × Text)) (name : Text) :
    textsUnder (collect pairs) name = textsOf pairs name :=
  textsUnder_foldl pairs .empty name

end Arguments

/-! ## The values have their declared types -/

theorem Literal.base_of_coerce {base : BaseType} {text : Text} {item : Scalar}
    (taken : coerce base text = .ok item) : item.base = base := by
  cases base with
  | str =>
      obtain rfl := Except.ok.inj taken
      rfl
  | num =>
      simp only [coerce] at taken
      split at taken
      · obtain rfl := Except.ok.inj taken
        rfl
      · cases taken
  | raw =>
      simp only [coerce, whole] at taken
      split at taken
      · cases taken
      · next found rest read =>
          split at taken
          · obtain rfl := Except.ok.inj taken
            obtain ⟨_, _, isRaw, _⟩ := @writes_of_readScalar .raw _ _ _ read
            exact isRaw
          · cases taken

namespace Arguments

theorem base_of_item {declaration : Declaration} {text : Text} {found : Scalar}
    (taken : item declaration text = .ok found) : found.base = declaration.type.base := by
  unfold item at taken
  split at taken
  · next coerced =>
      obtain rfl := Except.ok.inj taken
      exact Literal.base_of_coerce coerced
  · cases taken

theorem base_of_items {declaration : Declaration} {texts : List Text} {found : List Scalar}
    (taken : items declaration texts = .ok found) :
    ∀ item ∈ found, item.base = declaration.type.base := by
  induction texts generalizing found with
  | nil =>
      obtain rfl := Except.ok.inj taken
      exact List.forall_mem_nil _
  | cons text later ih =>
      unfold items at taken
      split at taken
      · cases taken
      · next first read =>
          obtain ⟨rest, below, rfl⟩ := map_eq_ok_iff.mp taken
          exact List.forall_mem_cons.mpr ⟨base_of_item read, ih below⟩

/-- What a parameter takes from argument texts fits its type, as its default does. -/
theorem fits_of_value {declaration : Declaration} (sound : declaration.Sound) {texts : List Text}
    {found : Value} (taken : value declaration texts = .ok found) :
    found.Fits declaration.type := by
  unfold value at taken
  split at taken
  · split at taken
    · next given =>
        obtain rfl := Except.ok.inj taken
        exact sound _ given
    · cases taken
  · next base _ isArray =>
      obtain ⟨found, below, rfl⟩ := map_eq_ok_iff.mp taken
      have bases := base_of_items below
      rw [isArray] at bases ⊢
      exact ⟨rfl, bases⟩
  · next base isScalar =>
      obtain ⟨found, below, rfl⟩ := map_eq_ok_iff.mp taken
      have same := base_of_item below
      rw [isScalar] at same ⊢
      exact congrArg ParamType.scalar same.symm
  · cases taken

/-- Each declared name has an entry, in the order of the declarations. -/
theorem entries_eq_ok {pairs : List (Text × Text)} {declarations : List Declaration}
    {found : List (Text × Value)} (taken : entries (collect pairs) declarations = .ok found) :
    found.map Prod.fst = declarations.map Declaration.name ∧
      ∀ declaration ∈ declarations, ∃ value, (declaration.name, value) ∈ found ∧
        Arguments.value declaration (textsOf pairs declaration.name) = .ok value := by
  induction declarations generalizing found with
  | nil =>
      obtain rfl := Except.ok.inj taken
      exact ⟨rfl, List.forall_mem_nil _⟩
  | cons declaration later ih =>
      rw [entries, textsUnder_collect] at taken
      split at taken
      · cases taken
      · next value here =>
          obtain ⟨rest, below, rfl⟩ := map_eq_ok_iff.mp taken
          obtain ⟨names, values⟩ := ih below
          refine ⟨congrArg (declaration.name :: ·) names, List.forall_mem_cons.mpr ⟨?_, ?_⟩⟩
          · exact ⟨value, List.mem_cons_self, here⟩
          · intro other member
            obtain ⟨value, inside, there⟩ := values other member
            exact ⟨value, List.mem_cons_of_mem _ inside, there⟩

/-- Each declared name has the value that its parameter takes from its texts. -/
theorem values_eq_ok {pairs : List (Text × Text)} {declarations : List Declaration}
    {values : Table Value} (distinct : (declarations.map Declaration.name).Nodup)
    (taken : Arguments.values declarations pairs = .ok values) :
    values.names = declarations.map Declaration.name ∧
      ∀ declaration ∈ declarations, ∃ value, values.get? declaration.name = some value ∧
        Arguments.value declaration (textsOf pairs declaration.name) = .ok value := by
  obtain ⟨found, below, rfl⟩ := map_eq_ok_iff.mp taken
  obtain ⟨names, values⟩ := entries_eq_ok below
  have same : (Table.ofPairs found).entries = found := Table.entries_ofPairs (names ▸ distinct)
  refine ⟨by rw [Table.names, same, names], fun declaration member => ?_⟩
  obtain ⟨value, inside, here⟩ := values declaration member
  exact ⟨value, Table.get?_eq_some_iff.mpr (same.symm ▸ inside), here⟩

/-- A parameter without argument texts takes its default. -/
theorem default_of_value {declaration : Declaration} {found : Value}
    (taken : value declaration [] = .ok found) : declaration.default = some found := by
  simp only [value] at taken
  split at taken
  · next given => rw [given, Except.ok.inj taken]
  · cases taken

end Arguments

/-! ## Binding the values -/

namespace Plan

/-- A value that fits the declared type passes the type check as it is. -/
theorem conform_of_fits {value : Value} {type : ParamType} (fits : value.Fits type) :
    conform type (.value value) = .ok value := by
  cases value with
  | scalar item =>
      obtain rfl : type = .scalar item.base := fits
      exact conform_eq_ok_iff.mpr (.scalar rfl)
  | array base items =>
      obtain ⟨rfl, bases⟩ := fits
      exact conform_eq_ok_iff.mpr (.array bases)

/-- A parameter is resolved to the value that is supplied for it, if that has its type. -/
theorem resolve_of_fits {declaration : Declaration} {values : Table Value} {value : Value}
    (found : values.get? declaration.name = some value) (fits : value.Fits declaration.type)
    (position : Nat) :
    resolve declaration (values.map .value) position = .ok value := by
  have supplied : (values.map Supplied.value).get? declaration.name = some (.value value) := by
    rw [Table.get?_map, found, Option.map_some]
  have converted : (Supplied.value value).convert? declaration.type = some (.value value) := rfl
  simp only [resolve, supplied, converted, conform_of_fits fits]

end Plan

namespace Query

/-- Every parameter has a value, and the value has the declared type. -/
def FilledBy (query : Query) (values : Table Value) : Prop :=
  ∀ declaration ∈ query.declarations, ∃ value,
    values.get? declaration.name = some value ∧ value.Fits declaration.type

/-- A reference to a name that is not declared is not bound, whatever the values are. -/
theorem bindOne_of_undeclared {query : Query} {reference : Reference}
    (undeclared : reference.name ∉ query.names) (values : Table Supplied) :
    Plan.bindOne query values reference =
      .error (.binding ⟨.undefinedReference, reference.name, some reference.start⟩) := by
  rw [Plan.bindOne, declaration?_eq_none_iff.mpr undeclared]

/-- Values that have the declared types are bound as they are. -/
theorem FilledBy.bindOne {query : Query} {values : Table Value} (filled : query.FilledBy values)
    {reference : Reference} {declaration : Declaration}
    (declared : query.declaration? reference.name = some declaration) :
    ∃ value, values.get? declaration.name = some value ∧
      Plan.bindOne query (values.map .value) reference = .ok ⟨reference, value⟩ := by
  obtain ⟨value, found, fits⟩ := filled declaration (mem_of_declaration? declared).1
  refine ⟨value, found, ?_⟩
  simp only [Plan.bindOne, declared, Plan.resolve_of_fits found fits, Except.map]

/-- Values that have the declared types are refused for a reference to a name that is not declared
at most. -/
theorem FilledBy.fault {query : Query} {values : Table Value} (filled : query.FilledBy values)
    {error : Error} (failed : query.bind (values.map .value) = .error error) :
    ∃ reference ∈ query.references, reference.name ∉ query.names ∧
      error = .binding ⟨.undefinedReference, reference.name, some reference.start⟩ := by
  rw [bind_eq_mapM] at failed
  obtain ⟨reference, member, here⟩ := exists_of_mapM_error (map_eq_error_iff.mp failed)
  refine ⟨reference, member, ?_⟩
  cases declared : query.declaration? reference.name with
  | none =>
      have undeclared := declaration?_eq_none_iff.mp declared
      rw [bindOne_of_undeclared undeclared] at here
      exact ⟨undeclared, (Except.error.inj here).symm⟩
  | some declaration =>
      obtain ⟨value, _, taken⟩ := filled.bindOne declared
      rw [taken] at here
      cases here

/-- A query that refers to a name that is not declared is not bound, whatever the values are. -/
theorem exists_error_of_undeclared {query : Query} {reference : Reference}
    (member : reference ∈ query.references) (undeclared : reference.name ∉ query.names)
    (values : Table Supplied) : ∃ error, query.bind values = .error error := by
  cases bound : query.bind values with
  | error error => exact ⟨error, rfl⟩
  | ok plan =>
      rw [bind_eq_mapM] at bound
      obtain ⟨bindings, passed, _⟩ := map_eq_ok_iff.mp bound
      obtain ⟨binding, here⟩ := exists_of_mapM_ok passed member
      rw [bindOne_of_undeclared undeclared] at here
      cases here

/-- Values that are the defaults may be left out. -/
theorem FilledBy.bind_keep {query : Query} {values : Table Value} (filled : query.FilledBy values)
    {kept : List Text} (defaults : ∀ declaration ∈ query.declarations, declaration.name ∉ kept →
      ∀ value, values.get? declaration.name = some value → declaration.default = some value) :
    query.bind ((values.map .value).keep kept) = query.bind (values.map .value) := by
  refine bind_congr rfl rfl fun reference _ => ?_
  cases declared : query.declaration? reference.name with
  | none => simp only [Plan.bindOne, declared]
  | some declaration =>
      have found := Table.get?_keep (values.map Supplied.value) kept declaration.name
      by_cases present : declaration.name ∈ kept
      · rw [if_pos present] at found
        simp only [Plan.bindOne, declared, Plan.resolve_congr found]
      · rw [if_neg present] at found
        obtain ⟨member, _⟩ := mem_of_declaration? declared
        obtain ⟨value, here, fits⟩ := filled declaration member
        have default := defaults declaration member present value here
        simp only [Plan.bindOne, declared, Plan.resolve_of_default found default,
          Plan.resolve_of_fits here fits]

/-- Argument texts give a query just the values that it takes. -/
structure TakesArguments (query : Query) (pairs : List (Text × Text)) (values : Table Value) :
    Prop where
  names : values.names = query.names
  filled : query.FilledBy values
  fault : ∀ error, query.bind (values.map .value) = .error error →
    ∃ reference ∈ query.references, reference.name ∉ query.names ∧
      error = .binding ⟨.undefinedReference, reference.name, some reference.start⟩
  refused : (∃ error, query.bind (values.map .value) = .error error) ↔
    ∃ reference ∈ query.references, reference.name ∉ query.names
  omitted : query.bind ((values.map .value).keep (pairs.map Prod.fst)) =
    query.bind (values.map .value)

/-- **Values from argument texts fit the binder.** Where argument texts give values for the
parameters of a query, there is one for each declared name and it has the declared type, binding
refuses nothing but a reference to a name that is not declared, and the values of the names that
were given are bound in the same way as all of them. -/
theorem takes_arguments {marker text : Text} {strict : Bool} {query : Query}
    (parsed : Query.parse marker strict text = .ok query) {pairs : List (Text × Text)}
    {values : Table Value} (given : Arguments.values query.declarations pairs = .ok values) :
    query.TakesArguments pairs values := by
  have read := Query.read_of_parse parsed
  have sound := Query.sound_of_read read
  obtain ⟨names, found⟩ := Arguments.values_eq_ok (Query.distinct_of_read read) given
  have filled : query.FilledBy values := by
    intro declaration member
    obtain ⟨value, here, taken⟩ := found declaration member
    exact ⟨value, here, Arguments.fits_of_value (sound declaration member) taken⟩
  refine ⟨names, filled, fun error => filled.fault, ⟨?_, ?_⟩, filled.bind_keep ?_⟩
  · rintro ⟨error, failed⟩
    obtain ⟨reference, member, undeclared, _⟩ := filled.fault failed
    exact ⟨reference, member, undeclared⟩
  · rintro ⟨reference, member, undeclared⟩
    exact exists_error_of_undeclared member undeclared _
  · intro declaration member absent value here
    obtain ⟨other, there, taken⟩ := found declaration member
    rw [Arguments.textsOf_eq_nil absent] at taken
    rw [Option.some.inj (here.symm.trans there)]
    exact Arguments.default_of_value taken

/-- A repeated name, one that is not declared, and a parameter without argument texts, beside a
reference to a name that is not declared. -/
theorem takes_arguments_repeated :
    let text := "--? ids: [num] = [0]\n--? by: raw = #id#\n--? name: str\nin (@ids) @nme @by".toList
    let pairs := [("ids".toList, "1".toList), ("other".toList, "x".toList),
      ("name".toList, "it's".toList), ("ids".toList, "2e1".toList)]
    ∃ query values, Query.parse ['-', '-', '?'] false text = .ok query ∧
      Arguments.values query.declarations pairs = .ok values ∧
      query.TakesArguments pairs values := by
  intro text pairs
  have succeeds : ((Query.parse ['-', '-', '?'] false text).bind
      (Arguments.values ·.declarations pairs)).toBool := by decide +kernel
  cases parsed : Query.parse ['-', '-', '?'] false text with
  | error error =>
      rw [parsed] at succeeds
      cases succeeds
  | ok query =>
      rw [parsed, Except.bind] at succeeds
      cases given : Arguments.values query.declarations pairs with
      | error error =>
          rw [given] at succeeds
          cases succeeds
      | ok values => exact ⟨query, values, rfl, given, takes_arguments parsed given⟩

end Query

end TypedQuery
