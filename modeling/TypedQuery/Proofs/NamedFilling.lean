import TypedQuery.Proofs.Keys
import TypedQuery.Proofs.Template

/-!
# Filling in by key

Named placeholders write a key into every slot of a template. The key of a slot is read off the
keys that are given by the end of the run (`Keys.keyOf`): an array that has keys keeps them
(`Keys.grows_after`), and there are as many as it has items. So a body that is filled in by key
is its template with these keys, and the arguments stand under them
(`Filling.ofBindings_named`).

Two slots have one key only if they are one slot (`Keys.keyOf_injective`), since the keys of
arrays keep apart over the whole run. From there the renderings of a plan agree: all fill in one
template, and the argument under the key of a slot is the argument at the place of that slot
(`Query.agrees_of_bind`).
-/

set_option autoImplicit false

namespace TypedQuery

/-! ## Filling in by key -/

namespace Keys

/-- The key of a slot by the keys of the arrays: of a scalar its name. -/
def keyOf (keys : Keys) (slot : Slot) : Text :=
  match slot.index with
  | none => slot.name
  | some index => ((keys.arrays.get? slot.name).getD []).getD index []

/-- A slot of an array has a key. -/
def Covers (keys : Keys) (slot : Slot) : Prop :=
  ∀ index, slot.index = some index →
    ∃ made, keys.arrays.get? slot.name = some made ∧ index < made.length

/-- Keys that have been given stay the keys of their slots. -/
theorem keyOf_of_grows {earlier later : Keys} (grows : earlier.Grows later) {slot : Slot}
    (covers : earlier.Covers slot) : later.keyOf slot = earlier.keyOf slot := by
  obtain ⟨name, index⟩ := slot
  cases index with
  | none => rfl
  | some index =>
      obtain ⟨made, known, _⟩ := covers index rfl
      simp only [keyOf, known, grows name made known]

theorem Covers.of_grows {earlier later : Keys} (grows : earlier.Grows later) {slot : Slot}
    (covers : earlier.Covers slot) : later.Covers slot := by
  intro index isItem
  obtain ⟨made, known, within⟩ := covers index isItem
  exact ⟨made, grows _ made known, within⟩

/-- The keys of an array are those of its slots. -/
theorem map_keyOf_array {keys : Keys} {name : Text} {made : List Text}
    (known : keys.arrays.get? name = some made) :
    ((List.range made.length).map fun index => (⟨name, some index⟩ : Slot)).map keys.keyOf =
      made := by
  refine List.ext_getElem (by simp) ?_
  intro index _ within
  simp [keyOf, known, within]

/-- **A key tells its slot.** Of slots that have keys, where the names of parameters are
reserved, no two have one key. -/
theorem keyOf_injective {reserved : List Text} {keys : Keys} (separate : keys.Separate reserved)
    {slot slot' : Slot} (covers : keys.Covers slot) (covers' : keys.Covers slot')
    (named : slot.name ∈ reserved) (named' : slot'.name ∈ reserved)
    (same : keys.keyOf slot = keys.keyOf slot') : slot = slot' := by
  obtain ⟨name, index⟩ := slot
  obtain ⟨name', index'⟩ := slot'
  have item : ∀ {name index}, keys.Covers ⟨name, some index⟩ →
      ∃ made, keys.arrays.get? name = some made ∧ ∃ within : index < made.length,
        keys.keyOf ⟨name, some index⟩ = made[index] := by
    intro name index covers
    obtain ⟨made, known, within⟩ := covers index rfl
    exact ⟨made, known, within, by simp [keyOf, show keys.arrays.get? name = some made from known,
      within]⟩
  cases index with
  | none =>
      cases index' with
      | none => exact congrArg (Slot.mk · none) same
      | some index' =>
          obtain ⟨made, known, within, key⟩ := item covers'
          refine absurd named (separate.not_reserved name' made known name ?_)
          rw [show name = made[index'] from same.trans key]
          exact List.getElem_mem within
  | some index =>
      obtain ⟨made, known, within, key⟩ := item covers
      cases index' with
      | none =>
          refine absurd named' (separate.not_reserved name made known name' ?_)
          rw [show name' = made[index] from same.symm.trans key]
          exact List.getElem_mem within
      | some index' =>
          obtain ⟨made', known', within', key'⟩ := item covers'
          have equal : made[index] = made'[index'] := key.symm.trans (same.trans key')
          by_cases oneArray : name = name'
          · subst oneArray
            obtain rfl := Option.some.inj (known.symm.trans known')
            rw [(separate.nodup name made known).getElem_inj_iff.mp equal]
          · refine absurd (List.getElem_mem within') ?_
            rw [← equal]
            exact separate.disjoint name made known name' made' known' oneArray _
              (List.getElem_mem within)

/-- The keys after a value is filled in under a name. -/
def enter (keys : Keys) (name : Text) : Value → Keys
  | .array .raw _ => keys
  | .array _ items => (keys.forArray name items.length).2
  | .scalar _ => keys

/-- The keys after some bindings are filled in. -/
def after (keys : Keys) (bindings : List Binding) : Keys :=
  bindings.foldl (fun keys binding => keys.enter binding.reference.name binding.value) keys

/-- Arrays have as many keys as the table has items for them. -/
def Counted (values : Table Value) (keys : Keys) : Prop :=
  ∀ name made, keys.arrays.get? name = some made →
    ∀ base items, values.get? name = some (.array base items) → made.length = items.length

theorem counted_reserve (values : Table Value) (names : List Text) :
    (reserve names).Counted values :=
  fun _ _ known => by cases known

theorem grows_enter (keys : Keys) (name : Text) (value : Value) :
    keys.Grows (keys.enter name value) := by
  match value with
  | .scalar _ | .array .raw _ => exact .refl keys
  | .array .str items | .array .num items => exact grows_forArray keys name items.length

theorem Separate.enter {reserved : List Text} {keys : Keys} (separate : keys.Separate reserved)
    (name : Text) (value : Value) : (keys.enter name value).Separate reserved := by
  match value with
  | .scalar _ | .array .raw _ => exact separate
  | .array .str items | .array .num items => exact separate.forArray name items.length

theorem Counted.forArray {values : Table Value} {keys : Keys} (counted : keys.Counted values)
    {name : Text} {base : BaseType} {items : List Scalar}
    (value : values.get? name = some (.array base items)) :
    (keys.forArray name items.length).2.Counted values := by
  cases known : keys.arrays.get? name with
  | some made => rwa [forArray_of_some known]
  | none =>
      rw [forArray_of_none known]
      intro other made found base' items' other_value
      rw [Table.get?_set] at found
      split at found
      · next same =>
          rw [same, value] at other_value
          obtain ⟨_, rfl⟩ := Value.array.inj (Option.some.inj other_value)
          obtain rfl := Option.some.inj found
          rw [length_allocate, wanted, List.length_map, List.length_range]
      · exact counted other made found base' items' other_value

theorem Counted.enter {values : Table Value} {keys : Keys} (counted : keys.Counted values)
    {name : Text} {value : Value} (known : values.get? name = some value) :
    (keys.enter name value).Counted values := by
  match value with
  | .scalar _ | .array .raw _ => exact counted
  | .array .str items | .array .num items => exact counted.forArray known

theorem grows_after (keys : Keys) (bindings : List Binding) : keys.Grows (keys.after bindings) := by
  induction bindings generalizing keys with
  | nil => exact .refl keys
  | cons binding later ih => exact (grows_enter keys _ binding.value).trans (ih _)

/-- The keys of arrays keep apart over a whole run. -/
theorem Separate.after {reserved : List Text} {keys : Keys} (separate : keys.Separate reserved)
    (bindings : List Binding) : (keys.after bindings).Separate reserved := by
  induction bindings generalizing keys with
  | nil => exact separate
  | cons binding later ih => exact ih (separate.enter _ binding.value)

end Keys

namespace Filling

/-- A value that fits a type fills in its template under its keys, and passes its arguments on
under them. -/
theorem ofValue_named {values : Table Value} {keys : Keys} (counted : keys.Counted values)
    {name : Text} {value : Value} (known : values.get? name = some value) {type : ParamType}
    (fits : value.Fits type) :
    ofValue .named keys name value =
        .ok (⟨(value.template name).fill
          ((value.template name).slots.map fun slot => ':' :: (keys.enter name value).keyOf slot),
          [], ((value.template name).slots.map (keys.enter name value).keyOf).zip value.arguments⟩,
          keys.enter name value) ∧
      ∀ slot ∈ (value.template name).slots, (keys.enter name value).Covers slot := by
  match value with
  | .scalar (.raw text) =>
      exact ⟨by simp [ofValue, ofScalar, Value.template, Template.fill, Template.slots, Keys.enter],
        fun _ member => by cases member⟩
  | .scalar (.str _) | .scalar (.num _) =>
      constructor
      · simp [ofValue, ofScalar, Value.template, Template.fill, Template.slots, Keys.enter,
          Keys.keyOf, Value.arguments]
      · intro slot member index isItem
        rw [List.mem_singleton.mp member] at isItem
        cases isItem
  | .array .raw items =>
      rw [Value.template, Template.slots_separated_text, List.map_nil, List.map_nil,
        Template.fill_separated_text, ofValue, pieces_of_raw fits.2]
      exact ⟨rfl, fun _ member => by cases member⟩
  | .array .str items | .array .num items =>
      have made := Keys.get?_forArray keys name items.length
      have count := counted.forArray known name _ made _ items known
      have slotKeys := Keys.map_keyOf_array made
      rw [count] at slotKeys
      have colons : ((List.range items.length).map fun index => (⟨name, some index⟩ : Slot)).map
          (fun slot => ':' :: (keys.forArray name items.length).2.keyOf slot) =
            (keys.forArray name items.length).1.map (':' :: ·) := by
        rw [← slotKeys, List.map_map, List.map_map, List.map_map]
        rfl
      constructor
      · rw [Value.slots_template_array (by decide), Keys.enter]
        · rw [colons, slotKeys, Value.template, Template.fill_separated_slot]
          · rfl
          · simp [count]
          · exact fun isRaw => by cases isRaw
        · exact fun isRaw => by cases isRaw
      · intro slot member index' isItem
        rw [Value.slots_template_array (by decide)] at member
        obtain ⟨index, below, rfl⟩ := List.mem_map.mp member
        obtain rfl := Option.some.inj isItem
        refine ⟨_, made, ?_⟩
        rw [count]
        exact List.mem_range.mp below

/-- Bindings fill in their template under the keys that are given by the end of the run, and
pass their arguments on under them. -/
theorem ofBindings_named {values : Table Value} {bindings : List Binding}
    (drawn : Binding.DrawnFrom values bindings) {keys : Keys} (counted : keys.Counted values)
    {last : Keys} (grows : (keys.after bindings).Grows last) (body : Text) (cursor : Nat) :
    ofBindings .named body cursor keys bindings =
        .ok ⟨(Template.ofBindings body cursor bindings).fill
          ((Template.ofBindings body cursor bindings).slots.map fun slot => ':' :: last.keyOf slot),
          [], ((Template.ofBindings body cursor bindings).slots.map last.keyOf).zip
            (Binding.argumentsOf bindings)⟩ ∧
      ∀ slot ∈ (Template.ofBindings body cursor bindings).slots, last.Covers slot := by
  induction bindings generalizing cursor keys with
  | nil =>
      constructor
      · simp [ofBindings, Template.ofBindings, Template.fill, Template.slots]
      · exact fun _ member => by cases member
  | cons binding later ih =>
      obtain ⟨known, type, fits⟩ := drawn binding List.mem_cons_self
      obtain ⟨here, covers⟩ := ofValue_named counted known fits
      obtain ⟨rest, covers'⟩ := ih
        (fun binding member => drawn binding (List.mem_cons_of_mem _ member))
        (counted.enter known) grows binding.reference.stop
      -- the keys of this value are still its keys at the end
      have kept : (keys.enter binding.reference.name binding.value).Grows last :=
        (Keys.grows_after _ later).trans grows
      have same : ∀ slot ∈ (binding.value.template binding.reference.name).slots,
          last.keyOf slot = (keys.enter binding.reference.name binding.value).keyOf slot :=
        fun slot member => Keys.keyOf_of_grows kept (covers slot member)
      have written := List.map_congr_left (f := fun slot => ':' :: last.keyOf slot)
        fun slot member => congrArg (':' :: ·) (same slot member)
      have slots := Template.slots_append (binding.value.template binding.reference.name)
        (.ofBindings body binding.reference.stop later)
      constructor
      · rw [ofBindings, here]
        simp only [rest, Except.map, Template.ofBindings, Template.slots, Template.fill, slots,
          List.map_append, written, List.map_congr_left same, List.nil_append]
        rw [Template.fill_append _ _ (List.length_map _), Binding.argumentsOf_cons,
          List.zip_append (by rw [List.length_map, Value.length_arguments]), List.append_assoc]
      · intro slot member
        rw [Template.ofBindings, Template.slots, slots] at member
        rcases List.mem_append.mp member with member | member
        · exact (covers slot member).of_grows kept
        · exact covers' slot member

end Filling

/-! ## Renderings of one plan -/

namespace Plan

/-- What the three renderings of a plan have in common: they fill in one template, and a key
stands for one slot and for the argument of that slot. -/
structure Agrees (plan : Plan) (keys : List Text) (question percent named : Rendering) : Prop where
  question_sql : question.sql = plan.template.fill (plan.template.slots.map fun _ => ['?'])
  percent_sql : percent.sql = plan.template.fill (plan.template.slots.map fun _ => ['%', 's'])
  named_sql : named.sql = plan.template.fill (keys.map (':' :: ·))
  arguments_eq : percent.arguments = question.arguments
  positional_named : question.named.names = [] ∧ percent.named.names = []
  named_arguments : named.arguments = []
  slots_length : plan.template.slots.length = question.arguments.length
  keys_length : keys.length = plan.template.slots.length
  argument : ∀ (k : Nat) (key : Text) (item : Scalar), keys[k]? = some key →
    question.arguments[k]? = some item → named.named.get? key = some item
  mem_names : ∀ key, key ∈ named.named.names ↔ key ∈ keys
  key_eq_iff : ∀ j k : Nat, j < keys.length → k < keys.length →
    (keys[j]? = keys[k]? ↔ plan.template.slots[j]? = plan.template.slots[k]?)

/-- A key beside an argument is the key of a slot of that argument. -/
theorem slot_of_mem_zip {slots : List Slot} {items : List Scalar} (keyOf : Slot → Text)
    {argument? : Slot → Option Scalar} (arguments : slots.map argument? = items.map some) :
    ∀ pair ∈ (slots.map keyOf).zip items,
      ∃ slot ∈ slots, keyOf slot = pair.1 ∧ argument? slot = some pair.2 := by
  induction slots generalizing items with
  | nil => exact fun _ member => by cases member
  | cons slot later ih =>
      cases items with
      | nil => cases arguments
      | cons item items =>
          obtain ⟨here, rest⟩ := List.cons_eq_cons.mp arguments
          intro pair member
          rcases List.mem_cons.mp member with rfl | member
          · exact ⟨slot, List.mem_cons_self, rfl, here⟩
          · obtain ⟨slot, inLater, found⟩ := ih rest pair member
            exact ⟨slot, List.mem_cons_of_mem _ inLater, found⟩

/-- The names that the body of a plan refers to. -/
def names (plan : Plan) : List Text := plan.bindings.map fun binding => binding.reference.name

/-- The keys that are given by the end of the rendering of a plan. -/
def lastKeys (plan : Plan) : Keys := (Keys.reserve plan.names).after plan.bindings

theorem separate_lastKeys (plan : Plan) : plan.lastKeys.Separate plan.names :=
  (Keys.separate_reserve plan.names).after plan.bindings

theorem render_positional {placeholder : Placeholder} (positional : placeholder ≠ .named)
    {plan : Plan} {values : Table Value} (drawn : Binding.DrawnFrom values plan.bindings) :
    plan.render placeholder =
      .ok ⟨plan.template.fill (plan.template.slots.map fun _ => placeholder.text),
        Binding.argumentsOf plan.bindings, .empty⟩ :=
  congrArg (Except.map _)
    (Filling.ofBindings_positional positional plan.body drawn 0 (Keys.reserve plan.names))

/-- A plan is rendered by key, and every slot of its template has a key by the end. -/
theorem render_named {plan : Plan} {values : Table Value}
    (drawn : Binding.DrawnFrom values plan.bindings) :
    plan.render .named =
        .ok ⟨plan.template.fill
          (plan.template.slots.map fun slot => ':' :: plan.lastKeys.keyOf slot), [],
          .ofPairs ((plan.template.slots.map plan.lastKeys.keyOf).zip
            (Binding.argumentsOf plan.bindings))⟩ ∧
      ∀ slot ∈ plan.template.slots, plan.lastKeys.Covers slot := by
  obtain ⟨byKey, covers⟩ := Filling.ofBindings_named drawn
    (Keys.counted_reserve values plan.names) (Keys.Grows.refl plan.lastKeys) plan.body 0
  exact ⟨congrArg (Except.map _) byKey, covers⟩

theorem name_mem_names {plan : Plan} {slot : Slot} (member : slot ∈ plan.template.slots) :
    slot.name ∈ plan.names := by
  obtain ⟨binding, bound, same, _⟩ := Template.name_of_mem_slots member
  rw [same]
  exact List.mem_map_of_mem bound

/-- Of the slots of a plan, no two have one key. -/
theorem slot_eq_of_keyOf {plan : Plan} {values : Table Value}
    (drawn : Binding.DrawnFrom values plan.bindings) {slot slot' : Slot}
    (member : slot ∈ plan.template.slots) (member' : slot' ∈ plan.template.slots)
    (same : plan.lastKeys.keyOf slot = plan.lastKeys.keyOf slot') : slot = slot' := by
  obtain ⟨_, covers⟩ := render_named drawn
  exact Keys.keyOf_injective plan.separate_lastKeys (covers slot member) (covers slot' member')
    (name_mem_names member) (name_mem_names member') same

/-- Under one key stands one argument. -/
theorem argument_of_key {plan : Plan} {values : Table Value}
    (drawn : Binding.DrawnFrom values plan.bindings) :
    let pairs := (plan.template.slots.map plan.lastKeys.keyOf).zip
      (Binding.argumentsOf plan.bindings)
    ∀ pair ∈ pairs, ∀ other ∈ pairs, pair.1 = other.1 → pair.2 = other.2 := by
  intro pairs pair member other member' same
  have onPairs := slot_of_mem_zip plan.lastKeys.keyOf
    (Template.map_argument?_slots drawn plan.body 0)
  obtain ⟨slot, inSlots, key, argument⟩ := onPairs pair member
  obtain ⟨slot', inSlots', key', argument'⟩ := onPairs other member'
  have equal := slot_eq_of_keyOf drawn inSlots inSlots' (key.trans (same.trans key'.symm))
  rw [equal] at argument
  exact Option.some.inj (argument.symm.trans argument')

/-- Where values come from one table, a plan is rendered with every kind of placeholder, and the
renderings agree. -/
theorem agrees_of_drawn {plan : Plan} {values : Table Value}
    (drawn : Binding.DrawnFrom values plan.bindings) :
    ∃ keys question percent named, plan.render .question = .ok question ∧
      plan.render .percent = .ok percent ∧ plan.render .named = .ok named ∧
      plan.Agrees keys question percent named := by
  let arguments := Binding.argumentsOf plan.bindings
  let pairs := (plan.template.slots.map plan.lastKeys.keyOf).zip arguments
  have count : plan.template.slots.length = arguments.length :=
    Template.length_slots_ofBindings plan.body 0 plan.bindings
  refine ⟨plan.template.slots.map plan.lastKeys.keyOf, _, _, _,
    render_positional (by decide) drawn, render_positional (by decide) drawn,
    (render_named drawn).1, ?_⟩
  constructor
  · rfl
  · rfl
  · rw [List.map_map]
    rfl
  · rfl
  · exact ⟨rfl, rfl⟩
  · rfl
  · exact count
  · exact List.length_map _
  · intro k key item atKey atItem
    have member : (key, item) ∈ pairs :=
      List.mem_of_getElem? (List.getElem?_zip_eq_some.mpr ⟨atKey, atItem⟩)
    exact Table.get?_setAll_of_mem (argument_of_key drawn) member .empty
  · intro key
    have names : key ∈ (Table.ofPairs pairs).names ↔ _ := Table.mem_names_setAll pairs .empty
    rw [List.map_fst_zip (by rw [List.length_map]; exact Nat.le_of_eq count)] at names
    exact names.trans (or_iff_right (List.not_mem_nil))
  · intro j k inSlots inSlots'
    rw [List.length_map] at inSlots inSlots'
    rw [List.getElem?_map, List.getElem?_map, List.getElem?_eq_getElem inSlots,
      List.getElem?_eq_getElem inSlots']
    constructor
    · intro same
      exact congrArg some (slot_eq_of_keyOf drawn (List.getElem_mem inSlots)
        (List.getElem_mem inSlots') (Option.some.inj same))
    · intro same
      exact congrArg (Option.map plan.lastKeys.keyOf) same

end Plan

/-- The values of a plan come from one table and fit their types, if the defaults of its query
do. -/
theorem Query.drawn_of_sound {query : Query} (sound : query.Sound) {values : Table Supplied}
    {plan : Plan} (bound : query.bind values = .ok plan) :
    ∃ last : Table Value, Binding.DrawnFrom last plan.bindings := by
  obtain ⟨_, _, last, resolves, fromLast⟩ := Query.bind_resolves bound
  refine ⟨last, fun binding member => ⟨fromLast binding member, ?_⟩⟩
  obtain ⟨declaration, _, fits⟩ := resolves.typed sound _ _ (fromLast binding member)
  exact ⟨declaration.type, fits⟩

theorem Query.drawn_of_bind {marker text : Text} {query : Query}
    (read : Query.read marker text = .ok query) {values : Table Supplied} {plan : Plan}
    (bound : query.bind values = .ok plan) :
    ∃ last : Table Value, Binding.DrawnFrom last plan.bindings :=
  Query.drawn_of_sound (Query.sound_of_read read) bound

/-- **Renderings by position and by key agree.** A plan that is bound is rendered with each of
the three placeholders. All three fill in the template of the plan: by position with the
placeholder in each slot, and with the same arguments, one for each slot; by key with a key in
each slot, under which the argument of the slot is passed on. The keys that are passed on are
the keys in the slots, and two slots have one key exactly if they stand for the same item of the
same parameter. -/
theorem Query.agrees_of_bind {marker text : Text} {query : Query}
    (read : Query.read marker text = .ok query) {values : Table Supplied} {plan : Plan}
    (bound : query.bind values = .ok plan) :
    ∃ keys question percent named, plan.renderAs ['?'] none = .ok question ∧
      plan.renderAs ['%', 's'] none = .ok percent ∧
      plan.renderAs [':', 'n', 'a', 'm', 'e'] none = .ok named ∧
      plan.Agrees keys question percent named := by
  obtain ⟨last, drawn⟩ := Query.drawn_of_bind read bound
  exact Plan.agrees_of_drawn drawn

/-- An array beside parameters that are called like the keys of its first item. -/
theorem Query.agrees_of_bind_clashing :
    let text := "--? ids: [num]\n--? ids_0: str\n--? ids_0_1: [str]\n@ids @ids_0 @ids_0_1 @ids".toList
    let values : Table Supplied := .ofPairs [("ids".toList, .list [.int 1, .int 2]),
      ("ids_0".toList, .text ['a']), ("ids_0_1".toList, .list [.text ['b']])]
    ((render ['-', '-', '?'] text values [':', 'n', 'a', 'm', 'e'] none).map
        Rendering.sql).toOption =
      some ":ids_0_2,:ids_1 :ids_0 :ids_0_1_0 :ids_0_2,:ids_1".toList ∧
    ∃ query plan, Query.read ['-', '-', '?'] text = .ok query ∧ query.bind values = .ok plan ∧
      ∃ keys question percent named, plan.renderAs ['?'] none = .ok question ∧
        plan.renderAs ['%', 's'] none = .ok percent ∧
        plan.renderAs [':', 'n', 'a', 'm', 'e'] none = .ok named ∧
        plan.Agrees keys question percent named := by
  intro text values
  refine ⟨by decide +kernel, ?_⟩
  have succeeds : ((Query.read ['-', '-', '?'] text).bind (Query.bind · values)).toBool := by
    decide +kernel
  cases read : Query.read ['-', '-', '?'] text with
  | error error =>
      rw [read] at succeeds
      cases succeeds
  | ok query =>
      rw [read, Except.bind] at succeeds
      cases bound : query.bind values with
      | error error =>
          rw [bound] at succeeds
          cases succeeds
      | ok plan => exact ⟨query, plan, rfl, bound, Query.agrees_of_bind read bound⟩

end TypedQuery
