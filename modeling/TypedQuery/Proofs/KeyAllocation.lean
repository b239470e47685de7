import TypedQuery.Proofs.NamedFilling
import TypedQuery.Proofs.Substitution
import TypedQuery.Proofs.Tables

/-!
# Keys of plans that nobody checked

A plan that is bound takes all values of one parameter from one table. A plan that is put together
by hand need not: it may refer to one name with a scalar and with arrays of different lengths, and
its arrays may hold items of any base type. Its keys keep apart all the same, since the invariant of
the keys (`Keys.Separate`) speaks of names and not of values.

Two runs are looked at. In a run of requests, each by a name and a number of items, a name is
answered by the keys that it was given first, and the answers for different names have no key in
common (`Keys.KeepsApart`). In a run over the bindings of a plan, each key that is written into the
SQL has been entered with an argument: an array that is referred to again writes the keys of its
first reference, and that one entered all of them (`Filling.entered_of_mem_keys`). An entry is
replaced only from a reference to the same parameter (`Plan.PassesByKey`).
-/

set_option autoImplicit false

namespace TypedQuery

/-! ## Runs of requests -/

namespace Keys

/-- The keys that are given to arrays, each asked for by its name and a number of items. -/
def answers (keys : Keys) : List (Text × Nat) → List (List Text)
  | [] => []
  | (name, count) :: later =>
      (keys.forArray name count).1 :: (keys.forArray name count).2.answers later

/-- The keys after some arrays were asked for. -/
def answered (keys : Keys) (requests : List (Text × Nat)) : Keys :=
  requests.foldl (fun keys request => (keys.forArray request.1 request.2).2) keys

theorem length_answers (keys : Keys) (requests : List (Text × Nat)) :
    (keys.answers requests).length = requests.length := by
  induction requests generalizing keys with
  | nil => rfl
  | cons request later ih => exact congrArg Nat.succ (ih _)

theorem Separate.answered {reserved : List Text} {keys : Keys} (separate : keys.Separate reserved)
    (requests : List (Text × Nat)) : (keys.answered requests).Separate reserved := by
  induction requests generalizing keys with
  | nil => exact separate
  | cons request later ih => exact ih (separate.forArray request.1 request.2)

theorem grows_answered (keys : Keys) (requests : List (Text × Nat)) :
    keys.Grows (keys.answered requests) := by
  induction requests generalizing keys with
  | nil => exact .refl keys
  | cons request later ih => exact (grows_forArray keys request.1 request.2).trans (ih _)

/-- What a request was answered by are the keys of its array at the end. -/
theorem get?_answered {keys : Keys} {requests : List (Text × Nat)} {request : Text × Nat}
    {made : List Text} (pair : (request, made) ∈ requests.zip (keys.answers requests)) :
    (keys.answered requests).arrays.get? request.1 = some made := by
  induction requests generalizing keys with
  | nil => cases pair
  | cons first later ih =>
      rcases List.mem_cons.mp pair with here | there
      · obtain ⟨rfl, rfl⟩ := Prod.mk.inj here
        exact grows_answered _ later _ _ (get?_forArray keys request.1 request.2)
      · exact ih there

/-- How many keys a request will be answered by: as many as its array has, or else as the first
request for it asks for. -/
def due (keys : Keys) (requests : List (Text × Nat)) (name : Text) : Option Nat :=
  ((keys.arrays.get? name).map List.length).or
    ((requests.find? fun request => request.1 = name).map Prod.snd)

/-- An answer does not change what is due. -/
theorem due_forArray (keys : Keys) (request : Text × Nat) (later : List (Text × Nat))
    (name : Text) :
    (keys.forArray request.1 request.2).2.due later name = keys.due (request :: later) name := by
  by_cases same : request.1 = name
  · subst same
    rw [due, get?_forArray, Option.map_some, length_forArray, due, List.find?_cons_of_pos (by simp)]
    cases keys.arrays.get? request.1 <;> rfl
  · rw [due, get?_forArray_of_ne keys (Ne.symm same), due, List.find?_cons_of_neg (by simpa)]

theorem due_of_mem_answers {keys : Keys} {requests : List (Text × Nat)} {request : Text × Nat}
    {made : List Text} (pair : (request, made) ∈ requests.zip (keys.answers requests)) :
    keys.due requests request.1 = some made.length := by
  induction requests generalizing keys with
  | nil => cases pair
  | cons first later ih =>
      rw [← due_forArray]
      rcases List.mem_cons.mp pair with here | there
      · obtain ⟨rfl, rfl⟩ := Prod.mk.inj here
        rw [due, get?_forArray]
        rfl
      · exact ih there

/-- What some requests were answered by, where some names are reserved: different keys that are not
reserved; for one name the same keys each time, as many as were asked for first; and for different
names no common key. -/
structure KeepsApart (reserved : List Text) (requests : List (Text × Nat))
    (answers : List (List Text)) : Prop where
  length : answers.length = requests.length
  nodup : ∀ made ∈ answers, made.Nodup
  not_reserved : ∀ made ∈ answers, ∀ key ∈ made, key ∉ reserved
  same : ∀ pair ∈ requests.zip answers, ∀ other ∈ requests.zip answers,
    pair.1.1 = other.1.1 → pair.2 = other.2
  count : ∀ pair ∈ requests.zip answers,
    (requests.find? fun other => other.1 = pair.1.1).map Prod.snd = some pair.2.length
  disjoint : ∀ pair ∈ requests.zip answers, ∀ other ∈ requests.zip answers,
    pair.1.1 ≠ other.1.1 → ∀ key ∈ pair.2, key ∉ other.2

/-- **Requests are answered by keys that keep apart.** -/
theorem keepsApart_answers (reserved : List Text) (requests : List (Text × Nat)) :
    KeepsApart reserved requests ((reserve reserved).answers requests) := by
  have separate := (separate_reserve reserved).answered requests
  have length := length_answers (reserve reserved) requests
  have requested : ∀ made ∈ (reserve reserved).answers requests, ∃ request,
      (request, made) ∈ requests.zip ((reserve reserved).answers requests) := by
    intro made member
    have zipped := List.map_snd_zip length.le
    rw [← zipped] at member
    obtain ⟨⟨request, _⟩, pair, rfl⟩ := List.mem_map.mp member
    exact ⟨request, pair⟩
  constructor
  · exact length
  · intro made member
    obtain ⟨_, pair⟩ := requested made member
    exact separate.nodup _ made (get?_answered pair)
  · intro made member
    obtain ⟨_, pair⟩ := requested made member
    exact separate.not_reserved _ made (get?_answered pair)
  · intro pair member other member' same
    have made := get?_answered member
    rw [same, get?_answered member'] at made
    exact (Option.some.inj made).symm
  · intro pair member
    exact due_of_mem_answers member
  · intro pair member other member' differ
    exact separate.disjoint _ _ (get?_answered member) _ _ (get?_answered member') differ

end Keys

/-! ## Plans by key -/

/-- Whether a value is an array. -/
def Value.isArray : Value → Bool
  | .scalar _ => false
  | .array _ _ => true

/-- The keys that a binding writes, by the keys of the arrays: a scalar is called by its name, and a
raw value has none. -/
def Binding.keys (given : Keys) (binding : Binding) : List Text :=
  match binding.value with
  | .scalar (.raw _) => []
  | .scalar _ => [binding.reference.name]
  | .array .raw _ => []
  | .array _ _ => (given.arrays.get? binding.reference.name).getD []

/-- What a binding writes by key: its text if it is raw, and otherwise its keys after colons. -/
def Binding.writtenByKey (given : Keys) (binding : Binding) : Text :=
  match binding.value with
  | .scalar (.raw text) => text
  | .array .raw items => Text.join [','] (items.map Scalar.chars)
  | _ => Text.join [','] ((binding.keys given).map (':' :: ·))

/-- The arguments that bindings pass on, each under its key. -/
def Binding.entriesOf (given : Keys) (bindings : List Binding) : List (Text × Scalar) :=
  bindings.flatMap fun binding => (binding.keys given).zip binding.value.arguments

namespace Filling

/-- Items of an array of raw pieces that are filled in have texts of their own. -/
theorem eq_of_pieces {index : Nat} {items : List Scalar} {texts : List Text}
    (filled : pieces index items = .ok texts) : texts = items.map Scalar.chars := by
  induction items generalizing index texts with
  | nil => exact (Except.ok.inj filled).symm
  | cons item later ih =>
      cases item with
      | num => cases filled
      | str text | raw text =>
          obtain ⟨rest, read, rfl⟩ := map_eq_ok_iff.mp filled
          rw [ih read]
          rfl

/-- One step: a binding that is filled in by key writes the keys that it has from then on, and
enters its arguments under them. -/
theorem ofValue_byKey {keys later : Keys} {binding : Binding} {filling : Filling}
    (filled : ofValue .named keys binding.reference.name binding.value = .ok (filling, later)) :
    later = keys.enter binding.reference.name binding.value ∧
      ∀ last, later.Grows last → filling.sql = binding.writtenByKey last ∧
        filling.named = (binding.keys last).zip binding.value.arguments := by
  obtain ⟨reference, value⟩ := binding
  match value with
  | .scalar (.raw _) =>
      obtain ⟨rfl, rfl⟩ := Prod.mk.inj (Except.ok.inj filled)
      exact ⟨rfl, fun _ _ => ⟨rfl, rfl⟩⟩
  | .scalar (.str _) | .scalar (.num _) =>
      obtain ⟨rfl, rfl⟩ := Prod.mk.inj (Except.ok.inj filled)
      exact ⟨rfl, fun _ _ => ⟨(Text.join_singleton _ _).symm, rfl⟩⟩
  | .array .raw items =>
      obtain ⟨texts, read, same⟩ := map_eq_ok_iff.mp filled
      obtain ⟨rfl, rfl⟩ := Prod.mk.inj same
      rw [eq_of_pieces read]
      exact ⟨rfl, fun _ _ => ⟨rfl, rfl⟩⟩
  | .array .str items | .array .num items =>
      obtain ⟨rfl, rfl⟩ := Prod.mk.inj (Except.ok.inj filled)
      refine ⟨rfl, fun last grows => ?_⟩
      have known := grows _ _ (Keys.get?_forArray keys reference.name items.length)
      simp only [Binding.writtenByKey, Binding.keys, known]
      exact ⟨rfl, rfl⟩

/-- Bindings that are filled in by key write the keys that are theirs at the end, and enter their
arguments under them. -/
theorem ofBindings_byKey {body : Text} {cursor : Nat} {keys last : Keys} {bindings : List Binding}
    {filling : Filling} (filled : ofBindings .named body cursor keys bindings = .ok filling)
    (grows : (keys.after bindings).Grows last) :
    filling.sql = Body.splice body cursor
        (bindings.map fun binding => (binding.reference, binding.writtenByKey last)) ∧
      filling.named = Binding.entriesOf last bindings := by
  induction bindings generalizing cursor keys filling with
  | nil =>
      obtain rfl := Except.ok.inj filled
      exact ⟨rfl, rfl⟩
  | cons binding later ih =>
      rw [ofBindings] at filled
      cases here : ofValue .named keys binding.reference.name binding.value with
      | error error =>
          rw [here] at filled
          cases filled
      | ok result =>
          obtain ⟨first, entered⟩ := result
          rw [here] at filled
          obtain ⟨rest, read, rfl⟩ := map_eq_ok_iff.mp filled
          obtain ⟨rfl, byKey⟩ := ofValue_byKey here
          obtain ⟨written, named⟩ := byKey last ((Keys.grows_after _ later).trans grows)
          obtain ⟨sql, entries⟩ := ih read grows
          constructor
          · rw [sql, written, List.append_assoc]
            rfl
          · rw [entries, named]
            rfl

end Filling

namespace Binding

/-- A key of a binding is its name, or belongs to its array. -/
theorem cases_of_mem_keys {given : Keys} {binding : Binding} {key : Text}
    (member : key ∈ binding.keys given) :
    (binding.value.isArray = false ∧ key = binding.reference.name) ∨
      (binding.value.isArray = true ∧
        ∃ made, given.arrays.get? binding.reference.name = some made ∧ key ∈ made) := by
  obtain ⟨reference, value⟩ := binding
  match value with
  | .scalar (.raw _) | .array .raw _ => cases member
  | .scalar (.str _) | .scalar (.num _) => exact .inl ⟨rfl, List.mem_singleton.mp member⟩
  | .array .str _ | .array .num _ =>
      refine .inr ⟨rfl, ?_⟩
      cases known : given.arrays.get? reference.name with
      | none =>
          rw [Binding.keys, known] at member
          cases member
      | some made =>
          rw [Binding.keys, known] at member
          exact ⟨made, rfl, member⟩

/-- A scalar enters an argument under each of its keys. -/
theorem map_fst_of_scalar (given : Keys) {binding : Binding}
    (scalar : binding.value.isArray = false) :
    ((binding.keys given).zip binding.value.arguments).map Prod.fst = binding.keys given := by
  obtain ⟨reference, value⟩ := binding
  match value with
  | .scalar (.raw _) | .scalar (.str _) | .scalar (.num _) => rfl
  | .array _ _ => cases scalar

/-- The keys of a binding differ from each other. -/
theorem nodup_keys {reserved : List Text} {given : Keys} (separate : given.Separate reserved)
    (binding : Binding) : (binding.keys given).Nodup := by
  obtain ⟨reference, value⟩ := binding
  match value with
  | .scalar (.raw _) | .array .raw _ => exact List.nodup_nil
  | .scalar (.str _) | .scalar (.num _) => exact List.nodup_singleton _
  | .array .str _ | .array .num _ =>
      cases known : given.arrays.get? reference.name with
      | none => simp [Binding.keys, known]
      | some made => simpa [Binding.keys, known] using separate.nodup _ made known

/-- A binding enters no two arguments under one key. -/
theorem functional_entries {reserved : List Text} {given : Keys}
    (separate : given.Separate reserved) (binding : Binding) :
    let entries := (binding.keys given).zip binding.value.arguments
    ∀ entry ∈ entries, ∀ other ∈ entries, entry.1 = other.1 → entry.2 = other.2 := by
  intro entries entry member other member' same
  obtain ⟨i, first⟩ := List.mem_iff_getElem?.mp member
  obtain ⟨j, second⟩ := List.mem_iff_getElem?.mp member'
  obtain ⟨key, item⟩ := List.getElem?_zip_eq_some.mp first
  obtain ⟨key', item'⟩ := List.getElem?_zip_eq_some.mp second
  have within := (List.getElem?_eq_some_iff.mp key).1
  rw [← same, ← key] at key'
  obtain rfl := (List.getElem?_inj within (nodup_keys separate binding)).mp key'.symm
  exact Option.some.inj (item.symm.trans item')

/-- An array that has keys after a binding had them before, or is the array of the binding, which
enters an argument under each of them. -/
theorem entered_of_enter {keys given : Keys} {binding : Binding}
    (grows : (keys.enter binding.reference.name binding.value).Grows given) {name : Text}
    {made : List Text}
    (known : (keys.enter binding.reference.name binding.value).arrays.get? name = some made) :
    keys.arrays.get? name = some made ∨
      ∀ key ∈ made, key ∈ (entriesOf given [binding]).map Prod.fst := by
  have later := grows name made known
  obtain ⟨reference, value⟩ := binding
  match value with
  | .scalar _ | .array .raw _ => exact .inl known
  | .array .str items | .array .num items =>
      simp only [Keys.enter] at known
      by_cases mine : name = reference.name
      · subst mine
        have given := Keys.get?_forArray keys reference.name items.length
        obtain rfl := Option.some.inj (given.symm.trans known)
        cases before : keys.arrays.get? reference.name with
        | some made =>
            rw [Keys.forArray_of_some before]
            exact .inl rfl
        | none =>
            have length := keys.length_forArray reference.name items.length
            rw [before] at length
            refine .inr fun key member => ?_
            rw [entriesOf, List.flatMap_singleton, Binding.keys, later]
            exact (List.map_fst_zip length.le).symm ▸ member
      · rw [Keys.get?_forArray_of_ne keys mine] at known
        exact .inl known

/-- An array that has keys after some bindings had them before, or the bindings enter an argument
under each of them. -/
theorem entered_of_after {keys given : Keys} {bindings : List Binding}
    (grows : (keys.after bindings).Grows given) {name : Text} {made : List Text}
    (known : (keys.after bindings).arrays.get? name = some made) :
    keys.arrays.get? name = some made ∨
      ∀ key ∈ made, key ∈ (entriesOf given bindings).map Prod.fst := by
  induction bindings generalizing keys with
  | nil => exact .inl known
  | cons binding later ih =>
      have split : entriesOf given (binding :: later) =
          entriesOf given [binding] ++ entriesOf given later := by
        simp [entriesOf]
      rw [split, List.map_append]
      rcases ih grows known with here | there
      · rcases entered_of_enter ((Keys.grows_after _ later).trans grows) here with before | entered
        · exact .inl before
        · exact .inr fun key member => List.mem_append_left _ (entered key member)
      · exact .inr fun key member => List.mem_append_right _ (there key member)

end Binding

namespace Plan

/-- What a plan writes and enters by key. The text is the body with the keys of the bindings, or
their raw texts, in the place of the references. Each key that is written has an entry, and there
are no other entries. Bindings with a common key have one name and are both scalars or both arrays,
so what a binding enters is only replaced by a later one of the same kind for the same parameter. -/
structure PassesByKey (plan : Plan) (rendering : Rendering) : Prop where
  sql : rendering.sql = Body.splice plan.body 0
    (plan.bindings.map fun binding => (binding.reference, binding.writtenByKey plan.lastKeys))
  mem_names : ∀ key, key ∈ rendering.named.names ↔
    ∃ binding ∈ plan.bindings, key ∈ binding.keys plan.lastKeys
  apart : ∀ binding ∈ plan.bindings, ∀ other ∈ plan.bindings,
    ∀ key ∈ binding.keys plan.lastKeys, key ∈ other.keys plan.lastKeys →
      binding.reference.name = other.reference.name ∧ binding.value.isArray = other.value.isArray
  kept : ∀ (before : List Binding) (binding : Binding) (after : List Binding),
    plan.bindings = before ++ binding :: after →
      (∀ later ∈ after, later.reference.name = binding.reference.name →
        later.value.isArray ≠ binding.value.isArray) →
      ∀ entry ∈ (binding.keys plan.lastKeys).zip binding.value.arguments,
        rendering.named.get? entry.1 = some entry.2

/-- A key tells the name of its parameter, and whether that is filled in with an array. -/
theorem keys_apart (plan : Plan) {binding other : Binding} (bound : binding ∈ plan.bindings)
    (bound' : other ∈ plan.bindings) {key : Text} (member : key ∈ binding.keys plan.lastKeys)
    (member' : key ∈ other.keys plan.lastKeys) :
    binding.reference.name = other.reference.name ∧
      binding.value.isArray = other.value.isArray := by
  have separate := plan.separate_lastKeys
  have named : ∀ binding ∈ plan.bindings, binding.reference.name ∈ plan.names :=
    fun binding bound => List.mem_map_of_mem bound
  rcases Binding.cases_of_mem_keys member with ⟨scalar, isName⟩ | ⟨array, made, known, inside⟩
  · rcases Binding.cases_of_mem_keys member' with ⟨scalar', isName'⟩ | ⟨_, made, known, inside⟩
    · exact ⟨isName.symm.trans isName', scalar.trans scalar'.symm⟩
    · rw [isName] at inside
      exact absurd (named binding bound) (separate.not_reserved _ made known _ inside)
  · rcases Binding.cases_of_mem_keys member' with ⟨_, isName'⟩ | ⟨array', made', known', inside'⟩
    · rw [isName'] at inside
      exact absurd (named other bound') (separate.not_reserved _ made known _ inside)
    · refine ⟨?_, array.trans array'.symm⟩
      by_contra differ
      exact separate.disjoint _ made known _ made' known' differ key inside inside'

/-- A key is entered exactly if a binding writes it. -/
theorem mem_entries_iff (plan : Plan) (key : Text) :
    key ∈ (Binding.entriesOf plan.lastKeys plan.bindings).map Prod.fst ↔
      ∃ binding ∈ plan.bindings, key ∈ binding.keys plan.lastKeys := by
  constructor
  · intro member
    obtain ⟨entry, entered, rfl⟩ := List.mem_map.mp member
    obtain ⟨binding, bound, inside⟩ := List.mem_flatMap.mp entered
    exact ⟨binding, bound, (List.of_mem_zip inside).1⟩
  · rintro ⟨binding, bound, member⟩
    rcases Binding.cases_of_mem_keys member with ⟨scalar, _⟩ | ⟨_, made, known, inside⟩
    · rw [← Binding.map_fst_of_scalar _ scalar] at member
      obtain ⟨entry, inside, rfl⟩ := List.mem_map.mp member
      exact List.mem_map_of_mem (List.mem_flatMap.mpr ⟨binding, bound, inside⟩)
    · rcases Binding.entered_of_after (Keys.Grows.refl _) known with before | entered
      · cases before
      · exact entered key inside

/-- A plan that is rendered by key passes its arguments on under the keys that it writes. -/
theorem passesByKey_of_render {plan : Plan} {rendering : Rendering}
    (rendered : plan.render .named = .ok rendering) : plan.PassesByKey rendering := by
  obtain ⟨filling, filled, rfl⟩ := map_eq_ok_iff.mp rendered
  obtain ⟨sql, named⟩ := Filling.ofBindings_byKey filled (Keys.Grows.refl plan.lastKeys)
  constructor
  · exact sql
  · intro key
    rw [← plan.mem_entries_iff, ← named]
    exact (Table.mem_names_setAll filling.named .empty).trans (or_iff_right List.not_mem_nil)
  · exact fun binding bound other bound' key member member' =>
      plan.keys_apart bound bound' member member'
  · intro before binding after whole none entry entered
    have bound : ∀ each ∈ binding :: after, each ∈ plan.bindings := by
      intro each member
      rw [whole]
      exact List.mem_append_right _ member
    have inside := (List.of_mem_zip entered).1
    -- the key is entered by no later binding
    have absent : entry.1 ∉ (Binding.entriesOf plan.lastKeys after).map Prod.fst := by
      intro member
      obtain ⟨other, entered', same⟩ := List.mem_map.mp member
      obtain ⟨later, member', inside'⟩ := List.mem_flatMap.mp entered'
      have inside'' := (List.of_mem_zip inside').1
      rw [same] at inside''
      obtain ⟨name, kind⟩ := plan.keys_apart (bound later (List.mem_cons_of_mem _ member'))
        (bound binding List.mem_cons_self) inside'' inside
      exact none later member' name kind
    have distinct := Binding.functional_entries plan.separate_lastKeys binding
    have entries : filling.named = Binding.entriesOf plan.lastKeys before ++
        ((binding.keys plan.lastKeys).zip binding.value.arguments ++
          Binding.entriesOf plan.lastKeys after) := by
      rw [named, whole]
      simp [Binding.entriesOf]
    rw [Table.ofPairs, entries, Table.setAll_append, Table.setAll_append,
      Table.get?_setAll_of_not_mem absent]
    exact Table.get?_setAll_of_mem distinct entered _

end Plan

/-- **Keys never collide**: neither those that are given for a run of requests, nor those that any
plan is rendered with. -/
theorem Keys.never_collide (reserved : List Text) (requests : List (Text × Nat)) {plan : Plan}
    {asked : Text} {dialect : Option Dialect}
    (chosen : Placeholder.choose asked dialect = .ok .named) {rendering : Rendering}
    (rendered : plan.renderAs asked dialect = .ok rendering) :
    Keys.KeepsApart reserved requests ((Keys.reserve reserved).answers requests) ∧
      plan.PassesByKey rendering := by
  rw [Plan.renderAs, chosen] at rendered
  exact ⟨Keys.keepsApart_answers reserved requests, Plan.passesByKey_of_render rendered⟩

/-- Two requests for `a` around one for `a_0`, and a plan that was put together by hand: it fills in
`a` with arrays of different lengths and with a scalar, and refers to names like the keys of `a`. -/
theorem Keys.never_collide_clashing :
    let requests : List (Text × Nat) := [("a".toList, 2), ("a_0".toList, 2), ("a".toList, 1)]
    let reference (name : String) (start stop : Nat) : Reference := ⟨name.toList, start, stop⟩
    let plan : Plan := ⟨"x @a y @a z @a_0 @a @r".toList,
      [⟨reference "a" 2 4, .array .str [.str ['p'], .raw ['q']]⟩,
        ⟨reference "a" 7 9, .array .num [.str ['r']]⟩,
        ⟨reference "a_0" 12 16, .array .str [.str ['s'], .str ['t']]⟩,
        ⟨reference "a" 17 19, .scalar (.str ['u'])⟩,
        ⟨reference "r" 20 22, .scalar (.raw [':', 'v'])⟩]⟩
    (Keys.reserve ["a_0_1".toList]).answers requests =
        [["a_0".toList, "a_1".toList], ["a_0_0".toList, "a_0_1_1".toList],
          ["a_0".toList, "a_1".toList]] ∧
      (∃ rendering, plan.renderAs [':', 'n', 'a', 'm', 'e'] none = .ok rendering ∧
        rendering.sql = "x :a_0_1,:a_1 y :a_0_1,:a_1 z :a_0_0,:a_0_1_1 :a :v".toList ∧
        Keys.KeepsApart ["a_0_1".toList] requests
            ((Keys.reserve ["a_0_1".toList]).answers requests) ∧
          plan.PassesByKey rendering) := by
  intro requests reference plan
  have sql : ((plan.renderAs [':', 'n', 'a', 'm', 'e'] none).map Rendering.sql).toOption =
      some "x :a_0_1,:a_1 y :a_0_1,:a_1 z :a_0_0,:a_0_1_1 :a :v".toList := by decide +kernel
  refine ⟨by decide +kernel, ?_⟩
  cases rendered : plan.renderAs [':', 'n', 'a', 'm', 'e'] none with
  | error error =>
      rw [rendered] at sql
      cases sql
  | ok rendering =>
      rw [rendered] at sql
      exact ⟨rendering, rfl, Option.some.inj sql, Keys.never_collide ["a_0_1".toList] requests
        (show Placeholder.choose [':', 'n', 'a', 'm', 'e'] none = .ok .named by decide) rendered⟩

end TypedQuery
