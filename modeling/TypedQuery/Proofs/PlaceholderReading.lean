import TypedQuery.Proofs.ReferenceSpans
import TypedQuery.Proofs.Soundness

/-!
# Placeholders by key can be read off

A database finds the key of a placeholder as the longest name after its colon. What it finds is the
key that the plan wrote, if nothing that follows a placeholder continues a name.

Three things may follow. Between two items of an array there is a comma. After the last slot of a
reference comes the rest of the body, which does not continue the name of the reference, and so
does not continue its key either. Or the next reference stands there at once: it writes a colon, or
it is an empty array that writes nothing and stops where its own name is not continued. So the text
from any reference on starts with no character of a name (`Template.endsName_ofBindings`), and a
template keeps that behind each of its slots (`Template.delimited_ofBindings`). Raw pieces are
left out, since their first character may be any.
-/

set_option autoImplicit false

namespace TypedQuery

/-! ## Templates that are written out -/

namespace Template

/-- A template with a text for each slot. -/
def spell (write : Slot → Text) (template : Template) : Text :=
  template.fill (template.slots.map write)

theorem spell_append (write : Slot → Text) (first second : Template) :
    spell write (first ++ second) = spell write first ++ spell write second := by
  rw [spell, slots_append, List.map_append, fill_append _ _ (List.length_map _), spell, spell]

theorem spell_text (write : Slot → Text) (chars : Text) (later : Template) :
    spell write (.text chars :: later) = chars ++ spell write later := rfl

theorem spell_slot (write : Slot → Text) (slot : Slot) (later : Template) :
    spell write (.slot slot :: later) = write slot ++ spell write later := rfl

/-- What follows a slot of a template does not continue a name. -/
def Delimited (write : Slot → Text) : Template → Prop
  | [] => True
  | .text _ :: later => Delimited write later
  | .slot _ :: later => (spell write later).EndsName ∧ Delimited write later

theorem Delimited.endsName {write : Slot → Text} {front back : Template} {slot : Slot}
    (delimited : Delimited write (front ++ .slot slot :: back)) : (spell write back).EndsName := by
  induction front with
  | nil => exact delimited.1
  | cons piece later ih =>
      cases piece with
      | text => exact ih delimited
      | slot => exact ih delimited.2

end Template

/-! ## What a value writes -/

/-- A value that is not raw writes slots with commas between them. -/
theorem Value.exists_slots {value : Value} (notRaw : value.type.base ≠ .raw) (name : Text) :
    ∃ slots : List Slot, value.template name = Template.separated (slots.map .slot) := by
  match value with
  | .scalar (.raw _) | .array .raw _ => exact absurd rfl notRaw
  | .scalar (.str _) | .scalar (.num _) => exact ⟨[⟨name, none⟩], rfl⟩
  | .array .str _ | .array .num _ => exact ⟨_, rfl⟩

/-! ## What follows a slot -/

namespace Text

/-- A text does not continue a name if neither of its two parts does. -/
theorem EndsName.append {text more : Text} (first : text.EndsName) (second : more.EndsName) :
    (text ++ more).EndsName := by
  cases text with
  | nil => exact second
  | cons c rest => exact stops_cons (first c rfl) _

/-- Where a text does not continue a name, nothing that is cut out from there on does. -/
theorem endsName_slice {text : Text} {start : Nat} (ends : EndsName (text.drop start))
    (stop : Nat) : EndsName (slice text start stop) := by
  rw [slice, List.drop_take]
  rw [← List.take_append_drop (stop - start) (text.drop start)] at ends
  exact Stops.front ends

end Text

namespace Template

variable {write : Slot → Text}

/-- Slots with commas between them do not continue a name, where the text of a slot does not. -/
theorem endsName_separated (colons : ∀ slot, (write slot).EndsName)
    (slots : List Slot) : (spell write (separated (slots.map .slot))).EndsName := by
  cases slots with
  | nil => exact Text.stops_nil _
  | cons slot later =>
      cases later with
      | nil => exact (colons slot).append (Text.stops_nil _)
      | cons next later => exact (colons slot).append (Text.stops_cons rfl _)

/-- A comma follows each of some slots but the last one. -/
theorem delimited_separated_append {rest : Template} (ends : (spell write rest).EndsName)
    (delimited : Delimited write rest) (slots : List Slot) :
    Delimited write (separated (slots.map .slot) ++ rest) := by
  match slots with
  | [] => exact delimited
  | [_] => exact ⟨ends, delimited⟩
  | _ :: next :: later =>
      exact ⟨Text.stops_cons rfl _, delimited_separated_append ends delimited (next :: later)⟩

/-- Where a body does not continue a name at an offset nor behind any reference, what bindings make
of it from the offset on does not continue one. -/
theorem endsName_ofBindings (colons : ∀ slot, (write slot).EndsName) {body : Text}
    {bindings : List Binding}
    (notRaw : ∀ binding ∈ bindings, binding.value.type.base ≠ .raw)
    (stops : ∀ binding ∈ bindings, Text.EndsName (body.drop binding.reference.stop)) {cursor : Nat}
    (ends : Text.EndsName (body.drop cursor)) :
    (spell write (ofBindings body cursor bindings)).EndsName := by
  induction bindings generalizing cursor with
  | nil => exact Text.EndsName.append ends (Text.stops_nil _)
  | cons binding later ih =>
      obtain ⟨notRaw, notRaw'⟩ := List.forall_mem_cons.mp notRaw
      obtain ⟨stop, stops'⟩ := List.forall_mem_cons.mp stops
      obtain ⟨slots, template⟩ := Value.exists_slots notRaw binding.reference.name
      rw [ofBindings, spell_text, spell_append, template]
      exact (Text.endsName_slice ends _).append
        ((endsName_separated colons slots).append (ih notRaw' stops' stop))

/-- A template keeps what follows each of its slots from continuing a name. -/
theorem delimited_ofBindings (colons : ∀ slot, (write slot).EndsName) {body : Text}
    {bindings : List Binding}
    (notRaw : ∀ binding ∈ bindings, binding.value.type.base ≠ .raw)
    (stops : ∀ binding ∈ bindings, Text.EndsName (body.drop binding.reference.stop))
    (cursor : Nat) : Delimited write (ofBindings body cursor bindings) := by
  induction bindings generalizing cursor with
  | nil => exact trivial
  | cons binding later ih =>
      obtain ⟨notRaw, notRaw'⟩ := List.forall_mem_cons.mp notRaw
      obtain ⟨stop, stops'⟩ := List.forall_mem_cons.mp stops
      obtain ⟨slots, template⟩ := Value.exists_slots notRaw binding.reference.name
      rw [ofBindings, template]
      exact delimited_separated_append (endsName_ofBindings colons notRaw' stops' stop)
        (ih notRaw' stops' _) slots

end Template

/-! ## Placeholders by key -/

namespace Plan

/-- What is written into a slot by key. -/
def placeholderOf (plan : Plan) (slot : Slot) : Text := ':' :: plan.lastKeys.keyOf slot

/-- A placeholder of a rendering by key, between the parts of the template around its slot: it is a
colon and a name, no character of a name follows, so the longest name after the colon is the key,
and under that key the item that the slot stands for is passed on. -/
structure ReadsOff (plan : Plan) (rendering : Rendering) (front : Template) (slot : Slot)
    (back : Template) : Prop where
  sql : rendering.sql = front.spell plan.placeholderOf ++
    ':' :: (plan.lastKeys.keyOf slot ++ back.spell plan.placeholderOf)
  named : Text.isName (plan.lastKeys.keyOf slot) = true
  ends : ∀ c, (back.spell plan.placeholderOf).head? = some c → Text.isNameChar c = false
  longest : Text.readName? (plan.lastKeys.keyOf slot ++ back.spell plan.placeholderOf) =
    some (plan.lastKeys.keyOf slot, back.spell plan.placeholderOf)
  argument : ∃ binding ∈ plan.bindings, binding.reference.name = slot.name ∧
    ∃ item, binding.value.item? slot.index = some item ∧
      rendering.named.get? (plan.lastKeys.keyOf slot) = some item

/-- A rendering by key is the template with a placeholder in each slot, and each placeholder can be
read off. -/
structure Legible (plan : Plan) (rendering : Rendering) : Prop where
  sql : rendering.sql = plan.template.spell plan.placeholderOf
  placeholder : ∀ (front : Template) (slot : Slot) (back : Template),
    plan.template = front ++ .slot slot :: back → plan.ReadsOff rendering front slot back

/-- The item that a slot of a plan stands for is passed on under its key. -/
theorem argument_of_slot {plan : Plan} {values : Table Value}
    (drawn : Binding.DrawnFrom values plan.bindings) {slot : Slot}
    (member : slot ∈ plan.template.slots) :
    ∃ binding ∈ plan.bindings, binding.reference.name = slot.name ∧
      ∃ item, binding.value.item? slot.index = some item ∧
        (Table.ofPairs ((plan.template.slots.map plan.lastKeys.keyOf).zip
          (Binding.argumentsOf plan.bindings))).get? (plan.lastKeys.keyOf slot) = some item := by
  obtain ⟨binding, bound, same, _⟩ := Template.name_of_mem_slots member
  obtain ⟨k, atSlot⟩ := List.mem_iff_getElem?.mp member
  have known : slot.argument? values = binding.value.item? slot.index := by
    rw [Slot.argument?, same, (drawn binding bound).1, Option.bind_some]
  have arguments : (plan.template.slots.map (Slot.argument? values))[k]? =
      ((Binding.argumentsOf plan.bindings).map some)[k]? :=
    congrArg (·[k]?) (Template.map_argument?_slots drawn plan.body 0)
  rw [List.getElem?_map, List.getElem?_map, atSlot, Option.map_some, known] at arguments
  obtain ⟨item, atItem, isItem⟩ := Option.map_eq_some_iff.mp arguments.symm
  have atKey : (plan.template.slots.map plan.lastKeys.keyOf)[k]? =
      some (plan.lastKeys.keyOf slot) := by
    rw [List.getElem?_map, atSlot, Option.map_some]
  have entered : (plan.lastKeys.keyOf slot, item) ∈
      (plan.template.slots.map plan.lastKeys.keyOf).zip (Binding.argumentsOf plan.bindings) :=
    List.mem_of_getElem? (List.getElem?_zip_eq_some.mpr ⟨atKey, atItem⟩)
  exact ⟨binding, bound, same.symm, item, isItem.symm,
    Table.get?_setAll_of_mem (argument_of_key drawn) entered .empty⟩

/-- A plan without raw values whose references are those of its body is rendered legibly. -/
theorem legible_of_drawn {plan : Plan} {values : Table Value}
    (drawn : Binding.DrawnFrom values plan.bindings)
    (order : plan.bindings.map Binding.reference = Body.references plan.body)
    (notRaw : ∀ binding ∈ plan.bindings, binding.value.type.base ≠ .raw) :
    ∃ rendering, plan.render .named = .ok rendering ∧ plan.Legible rendering := by
  have colons : ∀ slot, (plan.placeholderOf slot).EndsName :=
    fun slot => Text.stops_cons rfl _
  have stops : ∀ binding ∈ plan.bindings,
      Text.EndsName (plan.body.drop binding.reference.stop) := by
    intro binding member
    refine Body.endsName_drop_stop ?_
    rw [← order]
    exact List.mem_map_of_mem member
  refine ⟨_, (render_named drawn).1, rfl, fun front slot back split => ?_⟩
  have inSlots : slot ∈ plan.template.slots := by
    rw [split, Template.slots_append]
    exact List.mem_append_right _ List.mem_cons_self
  have delimited := Template.delimited_ofBindings colons notRaw stops 0
  rw [show Template.ofBindings plan.body 0 plan.bindings = _ from split] at delimited
  have ends := delimited.endsName
  have named : Text.isName (plan.lastKeys.keyOf slot) = true := by
    obtain ⟨key, isName, same⟩ := writes_keyOf drawn (isName_of_order order) slot inSlots
    rwa [(List.cons_eq_cons.mp same).2]
  refine ⟨?_, named, ends, Text.readName?_append named ends, argument_of_slot drawn inSlots⟩
  show plan.template.spell plan.placeholderOf = _
  rw [split, Template.spell_append, Template.spell_slot]
  rfl

end Plan

/-- **Placeholders by key can be read off.** A plan that is bound without raw values is rendered by
key, and every placeholder in the SQL is a colon and a name that no character of a name follows. So
the longest name after the colon is the key, and the argument of the placeholder is passed on under
it. -/
theorem Query.legible_of_bind {marker text : Text} {strict : Bool} {query : Query}
    (parsed : Query.parse marker strict text = .ok query) {values : Table Supplied} {plan : Plan}
    (bound : query.bind values = .ok plan)
    (notRaw : ∀ binding ∈ plan.bindings, binding.value.type.base ≠ .raw) :
    ∃ rendering, (∀ asked dialect, Placeholder.choose asked dialect = .ok .named →
      plan.renderAs asked dialect = .ok rendering) ∧ plan.Legible rendering := by
  have read := Query.read_of_parse parsed
  obtain ⟨last, drawn⟩ := Query.drawn_of_bind read bound
  obtain ⟨rendering, rendered, legible⟩ :=
    Plan.legible_of_drawn drawn (Query.order_of_bind read bound) notRaw
  refine ⟨rendering, fun asked dialect chosen => ?_, legible⟩
  rw [Plan.renderAs, chosen]
  exact rendered

/-- Adjacent references, with two empty arrays between the first and the last one, and an array
whose first key needs a suffix. -/
theorem Query.legible_of_bind_adjacent :
    let text := "--? a: [num]\n--? none: [str]\n--? a_0: str\nin (@a@none@none@a_0)\n".toList
    let values : Table Supplied := .ofPairs [("a".toList, .list [.int 1, .int 2]),
      ("none".toList, .list []), ("a_0".toList, .text ['x'])]
    ((render ['-', '-', '?'] text values [':', 'n', 'a', 'm', 'e'] none).map
        Rendering.sql).toOption = some "in (:a_0_1,:a_1:a_0)\n".toList ∧
    ∃ query plan, Query.parse ['-', '-', '?'] true text = .ok query ∧
      query.bind values = .ok plan ∧
      (∀ binding ∈ plan.bindings, binding.value.type.base ≠ .raw) ∧
      ∃ rendering, (∀ asked dialect, Placeholder.choose asked dialect = .ok .named →
        plan.renderAs asked dialect = .ok rendering) ∧ plan.Legible rendering := by
  intro text values
  refine ⟨by decide +kernel, ?_⟩
  have succeeds : ((Query.parse ['-', '-', '?'] true text).bind (Query.bind · values)).toBool := by
    decide +kernel
  have plain : (((Query.parse ['-', '-', '?'] true text).bind (Query.bind · values)).map
      fun plan => plan.bindings.all fun binding => binding.value.type.base ≠ .raw).toOption =
        some true := by
    decide +kernel
  obtain ⟨query, plan, parsed, bound⟩ := exists_of_bind succeeds
  rw [parsed, Except.bind, bound] at plain
  have notRaw : ∀ binding ∈ plan.bindings, binding.value.type.base ≠ .raw := by
    simpa [Except.map, Except.toOption] using plain
  exact ⟨query, plan, parsed, bound, notRaw, Query.legible_of_bind parsed bound notRaw⟩

end TypedQuery
