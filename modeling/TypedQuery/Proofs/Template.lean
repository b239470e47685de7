import TypedQuery.Proofs.Typing
import TypedQuery.Rendering.Basic

/-!
# The template of a plan

What a plan makes of its body is decided up to the writing of placeholders. The template of a
plan is the body with each reference replaced: by the text of a raw piece, or by a slot for each
argument, with commas between the items of an array (`Plan.template`). A slot says which
parameter it stands for and, if that is an array, which of its items.

The arguments of a plan are those of the slots of its template, one by one
(`Template.map_argument?_slots`). A kind of placeholder that goes by position writes itself into
every slot and passes these arguments on (`Filling.ofBindings_positional`). Placeholders with
names are the subject of `TypedQuery.Proofs.NamedFilling`.
-/

set_option autoImplicit false

namespace TypedQuery

/-! ## Templates -/

/-- A place for an argument: the parameter that it stands for, and which of its items if that is
an array. -/
structure Slot where
  name : Text
  index : Option Nat
  deriving DecidableEq, Repr

/-- A piece of a template. -/
inductive Piece where
  | text (chars : Text)
  | slot (slot : Slot)
  deriving DecidableEq, Repr

/-- Texts with slots for arguments between them. -/
abbrev Template := List Piece

namespace Template

/-- The slots of a template in order. -/
def slots : Template → List Slot
  | [] => []
  | .text _ :: later => slots later
  | .slot slot :: later => slot :: slots later

/-- The text of a template with texts in its slots, one after the other. -/
def fill : Template → List Text → Text
  | [], _ => []
  | .text chars :: later, texts => chars ++ fill later texts
  | .slot _ :: later, [] => fill later []
  | .slot _ :: later, text :: texts => text ++ fill later texts

/-- Pieces with commas between neighbours. -/
def separated (pieces : List Piece) : Template := pieces.intersperse (.text [','])

theorem slots_append (first second : Template) :
    (first ++ second : Template).slots = first.slots ++ second.slots := by
  induction first with
  | nil => rfl
  | cons piece later ih =>
      cases piece with
      | text => exact ih
      | slot slot => exact congrArg (slot :: ·) ih

/-- Templates one after the other are filled in one after the other. -/
theorem fill_append (first second : Template) {texts : List Text}
    (count : texts.length = first.slots.length) (more : List Text) :
    (first ++ second : Template).fill (texts ++ more) = first.fill texts ++ second.fill more := by
  induction first generalizing texts with
  | nil => rw [List.length_eq_zero_iff.mp count]; rfl
  | cons piece later ih =>
      cases piece with
      | text chars =>
          simp only [List.cons_append, fill, List.append_assoc]
          rw [ih count]
      | slot slot =>
          cases texts with
          | nil => cases count
          | cons text texts =>
              simp only [List.cons_append, fill, List.append_assoc]
              rw [ih (Nat.succ.inj count)]

theorem slots_separated_slot : ∀ slots : List Slot,
    (separated (slots.map .slot)).slots = slots
  | [] => rfl
  | [_] => rfl
  | first :: second :: later => congrArg (first :: ·) (slots_separated_slot (second :: later))

/-- Slots with commas between them are filled in with commas between the texts. -/
theorem fill_separated_slot : ∀ (slots : List Slot) (texts : List Text),
    slots.length = texts.length → (separated (slots.map .slot)).fill texts = Text.join [','] texts
  | [], [], _ => rfl
  | [_], [text], _ => rfl
  | first :: second :: later, text :: text' :: texts, count => by
      have rest := fill_separated_slot (second :: later) (text' :: texts) (Nat.succ.inj count)
      rw [Text.join_cons_cons, ← rest]
      rfl
  | [], _ :: _, count | _ :: _, [], count => by cases count
  | [_], _ :: _ :: _, count | _ :: _ :: _, [_], count => by cases count

theorem slots_separated_text : ∀ texts : List Text, (separated (texts.map .text)).slots = []
  | [] => rfl
  | [_] => rfl
  | _ :: second :: later => slots_separated_text (second :: later)

theorem fill_separated_text : ∀ texts : List Text,
    (separated (texts.map .text)).fill [] = Text.join [','] texts
  | [] => rfl
  | [text] => rfl
  | first :: second :: later => by
      have rest := fill_separated_text (second :: later)
      rw [Text.join_cons_cons, ← rest]
      rfl

end Template

/-! ## The template of a value -/

/-- The text of an item. A number has none of its own. -/
def Scalar.chars : Scalar → Text
  | .str text => text
  | .num _ => []
  | .raw text => text

namespace Value

/-- What a value puts in the place of a reference by a name. -/
def template (name : Text) : Value → Template
  | .scalar (.raw text) => [.text text]
  | .scalar _ => [.slot ⟨name, none⟩]
  | .array .raw items => Template.separated ((items.map Scalar.chars).map .text)
  | .array _ items =>
      Template.separated (((List.range items.length).map fun index => ⟨name, some index⟩).map .slot)

/-- The arguments that a value passes on. -/
def arguments : Value → List Scalar
  | .scalar (.raw _) => []
  | .scalar item => [item]
  | .array .raw _ => []
  | .array _ items => items

/-- An item of a value: of an array by its index, and a scalar itself. -/
def item? : Value → Option Nat → Option Scalar
  | .scalar item, none => some item
  | .array _ items, some index => items[index]?
  | _, _ => none

/-- The slots of an array that passes on its items. -/
theorem slots_template_array {base : BaseType} (passes : base ≠ .raw) (name : Text)
    (items : List Scalar) : (Value.template name (.array base items)).slots =
      (List.range items.length).map fun index => ⟨name, some index⟩ := by
  cases base with
  | raw => exact absurd rfl passes
  | str | num => exact Template.slots_separated_slot _

theorem name_of_mem_slots {name : Text} {value : Value} {slot : Slot}
    (member : slot ∈ (value.template name).slots) : slot.name = name := by
  match value with
  | .scalar (.raw text) => cases member
  | .scalar (.str _) | .scalar (.num _) => rw [List.mem_singleton.mp member]
  | .array .raw items =>
      rw [template, Template.slots_separated_text] at member
      cases member
  | .array .str items | .array .num items =>
      rw [slots_template_array (by decide)] at member
      obtain ⟨_, _, rfl⟩ := List.mem_map.mp member
      rfl

/-- Each slot stands for the argument in its place. -/
theorem map_item?_slots (name : Text) (value : Value) :
    ((value.template name).slots.map fun slot => value.item? slot.index) =
      value.arguments.map some := by
  match value with
  | .scalar (.raw text) => rfl
  | .scalar (.str _) | .scalar (.num _) => rfl
  | .array .raw items =>
      rw [template, Template.slots_separated_text]
      rfl
  | .array .str items | .array .num items =>
      rw [slots_template_array (by decide), List.map_map]
      refine List.ext_getElem (by simp [arguments]) ?_
      intro index below _
      have within : index < items.length := by simpa using below
      simp [item?, arguments, within]

theorem length_arguments (name : Text) (value : Value) :
    (value.template name).slots.length = value.arguments.length := by
  simpa using congrArg List.length (map_item?_slots name value)

/-- What a value writes by position does not depend on the name of its parameter. -/
theorem fill_template_congr (name name' text : Text) (value : Value) :
    (value.template name).fill ((value.template name).slots.map fun _ => text) =
      (value.template name').fill ((value.template name').slots.map fun _ => text) := by
  match value with
  | .scalar (.raw _) | .scalar (.str _) | .scalar (.num _) | .array .raw _ => rfl
  | .array .str items | .array .num items =>
      simp only [template, Template.slots_separated_slot]
      rw [Template.fill_separated_slot _ _ (List.length_map _).symm,
        Template.fill_separated_slot _ _ (List.length_map _).symm]
      simp only [List.map_map, Function.comp_def]

end Value

/-- What bindings make of a body from an offset on. -/
def Template.ofBindings (body : Text) : Nat → List Binding → Template
  | cursor, [] => [.text (body.drop cursor)]
  | cursor, binding :: later =>
      .text (Text.slice body cursor binding.reference.start) ::
        (binding.value.template binding.reference.name ++
          ofBindings body binding.reference.stop later)

/-- The template of a plan. -/
def Plan.template (plan : Plan) : Template := .ofBindings plan.body 0 plan.bindings

/-- The arguments that bindings pass on. -/
def Binding.argumentsOf (bindings : List Binding) : List Scalar :=
  bindings.flatMap fun binding => binding.value.arguments

theorem Binding.argumentsOf_cons (binding : Binding) (later : List Binding) :
    argumentsOf (binding :: later) = binding.value.arguments ++ argumentsOf later := rfl

theorem Template.slots_ofBindings (body : Text) (bindings : List Binding) (cursor : Nat) :
    (Template.ofBindings body cursor bindings).slots =
      bindings.flatMap fun binding => (binding.value.template binding.reference.name).slots := by
  induction bindings generalizing cursor with
  | nil => rfl
  | cons binding later ih =>
      rw [ofBindings, slots, slots_append, ih, List.flatMap_cons]

/-- Each slot of a template stands for a parameter that is bound. -/
theorem Template.name_of_mem_slots {body : Text} {bindings : List Binding} {cursor : Nat}
    {slot : Slot} (member : slot ∈ (Template.ofBindings body cursor bindings).slots) :
    ∃ binding ∈ bindings, slot.name = binding.reference.name ∧
      slot ∈ (binding.value.template binding.reference.name).slots := by
  rw [slots_ofBindings] at member
  obtain ⟨binding, bound, member⟩ := List.mem_flatMap.mp member
  exact ⟨binding, bound, Value.name_of_mem_slots member, member⟩

/-- Bindings take their values from a table, and the values fit some types. -/
def Binding.DrawnFrom (values : Table Value) (bindings : List Binding) : Prop :=
  ∀ binding ∈ bindings, values.get? binding.reference.name = some binding.value ∧
    ∃ type, binding.value.Fits type

/-- The argument of a slot by the table that bindings take their values from. -/
def Slot.argument? (values : Table Value) (slot : Slot) : Option Scalar :=
  (values.get? slot.name).bind fun value => value.item? slot.index

/-- The arguments of bindings are those of the slots of their template, one by one. -/
theorem Template.map_argument?_slots {values : Table Value} {bindings : List Binding}
    (drawn : Binding.DrawnFrom values bindings) (body : Text) (cursor : Nat) :
    (Template.ofBindings body cursor bindings).slots.map (Slot.argument? values) =
      (Binding.argumentsOf bindings).map some := by
  rw [slots_ofBindings]
  induction bindings with
  | nil => rfl
  | cons binding later ih =>
      have known := (drawn binding List.mem_cons_self).1
      have here : (binding.value.template binding.reference.name).slots.map
          (Slot.argument? values) = binding.value.arguments.map some := by
        rw [← Value.map_item?_slots binding.reference.name]
        refine List.map_congr_left fun slot member => ?_
        rw [Slot.argument?, Value.name_of_mem_slots member, known, Option.bind_some]
      have rest := ih fun binding member => drawn binding (List.mem_cons_of_mem _ member)
      rw [List.flatMap_cons, List.map_append, here, rest, Binding.argumentsOf_cons,
        List.map_append]

theorem Template.length_slots_ofBindings (body : Text) (cursor : Nat) (bindings : List Binding) :
    (Template.ofBindings body cursor bindings).slots.length =
      (Binding.argumentsOf bindings).length := by
  rw [slots_ofBindings]
  induction bindings with
  | nil => rfl
  | cons binding later ih =>
      rw [List.flatMap_cons, List.length_append, ih, Value.length_arguments,
        Binding.argumentsOf_cons, List.length_append]

/-! ## Filling in by position -/

namespace Filling

/-- Raw pieces are filled in as they are. -/
theorem pieces_of_raw {items : List Scalar} (raw : ∀ item ∈ items, item.base = .raw)
    (index : Nat) : pieces index items = .ok (items.map Scalar.chars) := by
  induction items generalizing index with
  | nil => rfl
  | cons item later ih =>
      have isRaw := raw item List.mem_cons_self
      have rest := ih (fun item member => raw item (List.mem_cons_of_mem _ member)) (index + 1)
      cases item with
      | str => cases isRaw
      | num => cases isRaw
      | raw text => rw [pieces, rest]; rfl

/-- A value that fits a type fills in its template, with each slot filled in by the
placeholder. -/
theorem ofValue_positional {placeholder : Placeholder} (positional : placeholder ≠ .named)
    (keys : Keys) (name : Text) {value : Value} {type : ParamType} (fits : value.Fits type) :
    ofValue placeholder keys name value =
      .ok (⟨(value.template name).fill ((value.template name).slots.map fun _ => placeholder.text),
        value.arguments, []⟩, keys) := by
  match value with
  | .scalar (.raw text) => simp [ofValue, ofScalar, Value.template, Template.fill, Value.arguments]
  | .scalar (.str _) | .scalar (.num _) =>
      cases placeholder with
      | named => exact absurd rfl positional
      | question | percent => rfl
  | .array .raw items =>
      rw [Value.template, Template.slots_separated_text, List.map_nil,
        Template.fill_separated_text, ofValue, pieces_of_raw fits.2]
      rfl
  | .array .str items | .array .num items =>
      have filled := Template.fill_separated_slot
        ((List.range items.length).map fun index => ⟨name, some index⟩)
        (items.map fun _ => placeholder.text) (by simp)
      have blank : ((List.range items.length).map fun index => (⟨name, some index⟩ : Slot)).map
          (fun _ => placeholder.text) = items.map fun _ => placeholder.text := by
        simp [Function.comp_def]
      rw [Value.template, Template.slots_separated_slot, blank, filled]
      · cases placeholder with
        | named => exact absurd rfl positional
        | question | percent => rfl
      · exact fun isRaw => by cases isRaw

/-- Bindings fill in their template, with each slot filled in by the placeholder. -/
theorem ofBindings_positional {placeholder : Placeholder} (positional : placeholder ≠ .named)
    (body : Text) {values : Table Value} {bindings : List Binding}
    (drawn : Binding.DrawnFrom values bindings) (cursor : Nat) (keys : Keys) :
    ofBindings placeholder body cursor keys bindings =
      .ok ⟨(Template.ofBindings body cursor bindings).fill
        ((Template.ofBindings body cursor bindings).slots.map fun _ => placeholder.text),
        Binding.argumentsOf bindings, []⟩ := by
  induction bindings generalizing cursor with
  | nil => simp [ofBindings, Template.ofBindings, Template.fill, Binding.argumentsOf]
  | cons binding later ih =>
      obtain ⟨type, fits⟩ := (drawn binding List.mem_cons_self).2
      have rest := ih (fun binding member => drawn binding (List.mem_cons_of_mem _ member))
        binding.reference.stop
      rw [ofBindings, ofValue_positional positional keys _ fits]
      simp only [rest, Except.map, Template.ofBindings, Template.slots, Template.fill,
        Template.slots_append, List.map_append]
      rw [Template.fill_append _ _ (List.length_map _), Binding.argumentsOf_cons,
        List.append_assoc, List.append_nil]

end Filling

end TypedQuery
