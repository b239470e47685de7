import TypedQuery.Proofs.CarriageReturns
import TypedQuery.Proofs.FirstFault
import TypedQuery.Proofs.Soundness

/-!
# Line endings do not matter

A query text may have carriage returns in front of its line feeds. It is read as the same query with
carriage returns in its body, and that query is bound and rendered as the query without them
(`lineEndings_alike`): the arguments are the same, and the SQL has a carriage return in front of
each line feed.

Binding compares names and looks at no offset but to name the place of a fault, which moves with its
reference (`Query.bind_crlf`). Rendering copies the body between the references and puts texts in
their place. These must have no line feed of their own, for one that comes from a value would stay
as it is. Keys, placeholders and commas have none, and neither has a default, which stands on one
line; so raw pieces that are supplied are the only ones to ask about (`Table.RawInLine`).
-/

set_option autoImplicit false

namespace TypedQuery

/-! ## Raw pieces -/

/-- A raw piece in supplied data: the data itself, an item of an array, or an item of a list. -/
inductive Supplied.HasRaw (text : Text) : Supplied → Prop
  | scalar : HasRaw text (.value (.scalar (.raw text)))
  | array {base : BaseType} {items : List Scalar} (member : .raw text ∈ items) :
      HasRaw text (.value (.array base items))
  | list {items : List Supplied} (member : .value (.scalar (.raw text)) ∈ items) :
      HasRaw text (.list items)
  | tuple {items : List Supplied} (member : .value (.scalar (.raw text)) ∈ items) :
      HasRaw text (.tuple items)

/-- No raw piece that is supplied has a line feed. -/
def Table.RawInLine (values : Table Supplied) : Prop :=
  ∀ name given, values.get? name = some given → ∀ text, given.HasRaw text → '\n' ∉ text

namespace Supplied

/-- Conversion makes no raw piece of other data. -/
theorem raw_of_convertItem {given : Supplied} {text : Text}
    (converts : given.convertItem? = some (.value (.scalar (.raw text)))) :
    given = .value (.scalar (.raw text)) := by
  cases given with
  | int number =>
      obtain ⟨_, _, same⟩ := Option.map_eq_some_iff.mp converts
      cases same
  | _ => first | exact Option.some.inj converts | cases converts

theorem raw_of_convertItems {base : BaseType} {items : List Supplied} {converted : Supplied}
    {text : Text} (converts : convertItems? base items = some converted)
    (raw : converted.HasRaw text) : .value (.scalar (.raw text)) ∈ items := by
  obtain ⟨found, each, rfl⟩ := Option.map_eq_some_iff.mp converts
  have member : .value (.scalar (.raw text)) ∈ found := by
    split at raw
    · next scalars all =>
        cases raw with
        | array member =>
            obtain ⟨given, inside, scalar⟩ := exists_of_mapM_eq_some all member
            rwa [← scalar?_eq_some_iff.mp scalar]
    · cases raw with
      | list member => exact member
  obtain ⟨given, inside, here⟩ := exists_of_mapM_eq_some each member
  rwa [← raw_of_convertItem here]

/-- What data is converted to has the raw pieces of the data. -/
theorem HasRaw.of_convert {expected : ParamType} {given converted : Supplied} {text : Text}
    (converts : given.convert? expected = some converted) (raw : converted.HasRaw text) :
    given.HasRaw text := by
  cases given with
  | list items => exact .list (raw_of_convertItems converts raw)
  | tuple items => exact .tuple (raw_of_convertItems converts raw)
  | text chars =>
      obtain rfl := Option.some.inj converts
      cases raw
  | int number =>
      obtain ⟨_, _, rfl⟩ := Option.map_eq_some_iff.mp converts
      cases raw
  | float number =>
      obtain rfl := Option.some.inj converts
      cases raw
  | null | bool | bytes | dict | foreign | value =>
      obtain rfl := Option.some.inj converts
      exact raw

/-- What data passes for has the raw pieces of the data. -/
theorem HasRaw.of_conforms {expected : ParamType} {given : Supplied} {value : Value} {text : Text}
    (conforms : Plan.Conforms expected given value) (raw : (Supplied.value value).HasRaw text) :
    given.HasRaw text := by
  cases conforms with
  | scalar | array => exact raw
  | list =>
      cases raw with
      | array member => exact .list (List.mem_map_of_mem member)

end Supplied

theorem Literal.WritesItem.newline_not_mem {literal text : Text}
    (writes : WritesItem literal (.raw text)) : '\n' ∉ text := by
  cases writes with
  | raw inside =>
      intro member
      cases (inside _ member).2

/-- A raw piece in a literal has no line feed, since a literal stands on one line. -/
theorem Literal.Writes.newline_not_mem {type : ParamType} {literal text : Text} {value : Value}
    (writes : Writes type literal value) (raw : (Supplied.value value).HasRaw text) :
    '\n' ∉ text := by
  cases writes with
  | scalar writes =>
      cases raw with
      | scalar => exact writes.newline_not_mem
  | empty =>
      cases raw with
      | array member => cases member
  | items _ writes =>
      cases raw with
      | array member =>
          obtain ⟨_, _, writes⟩ := writes.exists_item _ member
          exact writes.newline_not_mem

/-- A raw piece that a reference takes has no line feed if none that is supplied has one. -/
theorem Query.newline_not_mem_of_takes {marker text : Text} {query : Query}
    (read : Query.read marker text = .ok query) {values : Table Supplied}
    (inLine : values.RawInLine) {reference : Reference} {value : Value}
    (takes : query.Takes values reference value) {piece : Text}
    (raw : (Supplied.value value).HasRaw piece) : '\n' ∉ piece := by
  obtain ⟨declaration, declared, takes⟩ := takes
  cases takes with
  | default _ default =>
      obtain ⟨_, writes⟩ := Query.default_writes read (mem_of_declaration? declared).1 default
      exact writes.newline_not_mem raw
  | supplied supplied converts conforms =>
      exact inLine _ _ supplied piece ((raw.of_conforms conforms).of_convert converts)

/-! ## What is written -/

theorem Text.newline_not_mem_join {pieces : List Text} (inLine : ∀ piece ∈ pieces, '\n' ∉ piece) :
    '\n' ∉ join [','] pieces := by
  induction pieces with
  | nil => exact List.not_mem_nil
  | cons piece later ih =>
      obtain ⟨here, rest⟩ := List.forall_mem_cons.mp inLine
      cases later with
      | nil => rwa [join_singleton]
      | cons next later =>
          rw [join_cons_cons]
          simp [here, ih rest]

/-- A value writes no line feed where the slots and its raw pieces have none. -/
theorem Binding.newline_not_mem_written {binding : Binding} {type : ParamType}
    (fits : binding.value.Fits type) {write : Slot → Text}
    (slots : ∀ slot ∈ (binding.value.template binding.reference.name).slots, '\n' ∉ write slot)
    (raw : ∀ text, (Supplied.value binding.value).HasRaw text → '\n' ∉ text) :
    '\n' ∉ binding.written write := by
  obtain ⟨reference, value⟩ := binding
  match value with
  | .scalar (.raw text) =>
      rw [written, Value.template, Template.fill, Template.fill, List.append_nil]
      exact raw text .scalar
  | .scalar (.str _) | .scalar (.num _) =>
      have here := slots _ List.mem_cons_self
      rw [written, Value.template, Template.slots, Template.slots, List.map_singleton,
        Template.fill, Template.fill, List.append_nil]
      · exact here
      · exact fun _ isRaw => by cases isRaw
  | .array .raw items =>
      rw [written, Value.template, Template.slots_separated_text, List.map_nil,
        Template.fill_separated_text]
      refine Text.newline_not_mem_join fun piece member => ?_
      obtain ⟨item, inside, rfl⟩ := List.mem_map.mp member
      cases item with
      | str => cases fits.2 _ inside
      | num => cases fits.2 _ inside
      | raw text => exact raw text (.array inside)
  | .array .str items | .array .num items =>
      simp only [Value.slots_template_array, ne_eq, reduceCtorEq, not_false_eq_true] at slots
      rw [written, Value.slots_template_array (by decide), Value.template,
        Template.fill_separated_slot _ _ (List.length_map write).symm]
      · refine Text.newline_not_mem_join fun piece member => ?_
        obtain ⟨slot, inSlots, rfl⟩ := List.mem_map.mp member
        exact slots slot inSlots
      · exact fun isRaw => by cases isRaw

/-- No writing of a placeholder has a line feed. -/
theorem Placeholder.Writes.newline_not_mem {placeholder : Placeholder} {text : Text}
    (writes : placeholder.Writes text) : '\n' ∉ text := by
  cases placeholder with
  | named =>
      obtain ⟨key, named, rfl⟩ := writes
      simp [Text.newline_not_mem_of_isName named]
  | question | percent =>
      rw [writes]
      decide

/-! ## Binding -/

/-- An error of a query as it is reported with carriage returns in the body: the offset of a
reference is moved. -/
def Error.crlf (body : Text) : Error → Error
  | .binding ⟨fault, name, some position⟩ => .binding ⟨fault, name, some (body.moved position)⟩
  | error => error

/-- A binding of a body as it stands in the body with carriage returns. -/
def Binding.crlf (body : Text) (binding : Binding) : Binding :=
  ⟨binding.reference.crlf body, binding.value⟩

/-- A plan whose body has a carriage return in front of each line feed. -/
def Plan.crlf (plan : Plan) : Plan :=
  ⟨Text.crlf plan.body, plan.bindings.map (Binding.crlf plan.body)⟩

/-- Outcomes of a query and of the query with carriage returns: the same errors with moved offsets,
or the same results with carriage returns. -/
def MatchedCrlf {α : Type} (crlf : α → α) (body : Text) : Except Error α → Except Error α → Prop :=
  Matched (fun error error' => error' = error.crlf body) fun result result' => result' = crlf result

namespace Plan

theorem resolve_moved (declaration : Declaration) (values : Table Supplied) (body : Text)
    (position : Nat) :
    MatchedCrlf id body (resolve declaration values position)
      (resolve declaration values (body.moved position)) := by
  unfold resolve
  split
  · split
    · exact .error rfl
    · split
      · exact .ok rfl
      · exact .error rfl
  · split
    · exact .ok rfl
    · exact .error rfl

theorem bindOne_crlf (query : Query) (values : Table Supplied) (reference : Reference) :
    MatchedCrlf (Binding.crlf query.body) query.body (bindOne query values reference)
      (bindOne query.crlf values (reference.crlf query.body)) := by
  have same : query.crlf.declaration? (reference.crlf query.body).name =
      query.declaration? reference.name := rfl
  rw [bindOne, bindOne, same]
  cases query.declaration? reference.name with
  | none => exact .error rfl
  | some declaration =>
      refine (resolve_moved declaration values query.body reference.start).map ?_
      rintro value _ rfl
      rfl

end Plan

/-- **A query with carriage returns is bound as it was**, to the plan with carriage returns. -/
theorem Query.bind_crlf (query : Query) (values : Table Supplied) :
    MatchedCrlf Plan.crlf query.body (query.bind values) (query.crlf.bind values) := by
  have moved : List.Forall₂ (fun reference reference' => reference' = reference.crlf query.body)
      query.references query.crlf.references :=
    List.forall₂_map_right_iff.mpr (List.forall₂_same.mpr fun _ _ => rfl)
  have bound := Matched.mapM moved (f := Plan.bindOne query values)
    (g := Plan.bindOne query.crlf values) fun reference _ same =>
      same ▸ Plan.bindOne_crlf query values reference
  rw [bind_eq_mapM, bind_eq_mapM]
  refine bound.map fun bindings bindings' each => ?_
  have same : bindings' = bindings.map (Binding.crlf query.body) := by
    induction each with
    | nil => rfl
    | cons here _ ih => rw [here, ih, List.map_cons]
  rw [same]
  rfl

/-! ## Rendering -/

/-- A rendering whose SQL has a carriage return in front of each line feed. -/
def Rendering.crlf (rendering : Rendering) : Rendering :=
  { rendering with sql := Text.crlf rendering.sql }

namespace Plan

variable {plan : Plan}

theorem argumentsOf_crlf (plan : Plan) :
    Binding.argumentsOf plan.crlf.bindings = Binding.argumentsOf plan.bindings :=
  List.flatMap_map _ _ _

theorem slots_crlf (plan : Plan) : plan.crlf.template.slots = plan.template.slots := by
  rw [template, template, Template.slots_ofBindings, Template.slots_ofBindings]
  exact List.flatMap_map _ _ _

theorem lastKeys_crlf (plan : Plan) : plan.crlf.lastKeys = plan.lastKeys := by
  have names : plan.crlf.names = plan.names := List.map_map
  rw [lastKeys, lastKeys, names]
  exact List.foldl_map

theorem drawn_crlf {values : Table Value} (drawn : Binding.DrawnFrom values plan.bindings) :
    Binding.DrawnFrom values plan.crlf.bindings := by
  intro _ member
  obtain ⟨binding, inside, rfl⟩ := List.mem_map.mp member
  exact drawn binding inside

/-- A plan with carriage returns is filled in as it was, where the texts have no line feed. -/
theorem fill_template_crlf (order : plan.bindings.map Binding.reference = Body.references plan.body)
    {write : Slot → Text} (inLine : ∀ binding ∈ plan.bindings, '\n' ∉ binding.written write) :
    plan.crlf.template.fill (plan.crlf.template.slots.map write) =
      Text.crlf (plan.template.fill (plan.template.slots.map write)) := by
  have order' : plan.crlf.bindings.map Binding.reference = Body.references plan.crlf.body := by
    rw [show plan.crlf.body = Text.crlf plan.body from rfl, Body.references_crlf, ← order,
      List.map_map]
    exact List.map_map
  have written : plan.crlf.bindings.map (Binding.written write) =
      plan.bindings.map (Binding.written write) := List.map_map
  rw [fill_template order, fill_template order', written]
  refine Body.fillIn_crlf ?_ (List.forall_mem_map.mpr inLine)
  rw [← order, List.length_map, List.length_map]

/-- **A plan with carriage returns is rendered as it was**, with carriage returns in the SQL, if its
values write no line feed. -/
theorem render_crlf {values : Table Value} (drawn : Binding.DrawnFrom values plan.bindings)
    (order : plan.bindings.map Binding.reference = Body.references plan.body)
    (inLine : ∀ binding ∈ plan.bindings, ∀ text,
      (Supplied.value binding.value).HasRaw text → '\n' ∉ text)
    (placeholder : Placeholder) :
    plan.crlf.render placeholder = (plan.render placeholder).map Rendering.crlf := by
  have filled (write : Slot → Text) (writes : ∀ slot ∈ plan.template.slots,
      placeholder.Writes (write slot)) :
      plan.crlf.template.fill (plan.crlf.template.slots.map write) =
        Text.crlf (plan.template.fill (plan.template.slots.map write)) := by
    refine fill_template_crlf order fun binding member => ?_
    obtain ⟨_, _, fits⟩ := drawn binding member
    refine Binding.newline_not_mem_written fits (fun slot inside => ?_) (inLine binding member)
    refine (writes slot ?_).newline_not_mem
    rw [template, Template.slots_ofBindings]
    exact List.mem_flatMap.mpr ⟨binding, member, inside⟩
  cases placeholder with
  | named =>
      have filled := filled _ (writes_keyOf drawn (isName_of_order order))
      rw [(render_named drawn).1, (render_named (drawn_crlf drawn)).1, lastKeys_crlf, filled,
        slots_crlf, argumentsOf_crlf]
      rfl
  | question | percent =>
      have filled := filled (fun _ => _) fun _ _ => rfl
      rw [render_positional (by decide) drawn, render_positional (by decide) (drawn_crlf drawn),
        filled, argumentsOf_crlf]
      rfl

end Plan

/-! ## Queries -/

/-- A request that cannot be met has no offset. -/
theorem Error.crlf_of_choose {asked : Text} {dialect : Option Dialect} {error : Error}
    (refused : Placeholder.choose asked dialect = .error error) (body : Text) :
    error.crlf body = error := by
  unfold Placeholder.choose at refused
  split at refused
  · split at refused
    · cases refused
    · obtain rfl := Except.error.inj refused
      rfl
  · split at refused
    · cases refused
    · obtain rfl := Except.error.inj refused
      rfl

/-- **Line endings do not matter.** A text with a carriage return in front of each line feed is
refused for the same error, or it is the same query with carriage returns in its body and with its
references moved by the line feeds in front of them. With values whose raw pieces have no line feed,
that query is refused for the same error at the moved offset, or it is rendered with the same
arguments to the same SQL with carriage returns. -/
theorem lineEndings_alike (marker text : Text) :
    Query.parse marker false (Text.crlf text) = (Query.parse marker false text).map Query.crlf ∧
      ∀ query, Query.parse marker false text = .ok query →
        ∀ values : Table Supplied, values.RawInLine → ∀ (asked : Text) (dialect : Option Dialect),
          MatchedCrlf Rendering.crlf query.body (render marker text values asked dialect)
            (render marker (Text.crlf text) values asked dialect) := by
  constructor
  · rw [Query.parse, Query.parse, Query.read_crlf]
    cases Query.read marker text <;> rfl
  · intro query parsed values inLine asked dialect
    have read := Query.read_of_parse parsed
    have read' : Query.read marker (Text.crlf text) = .ok query.crlf := by
      rw [Query.read_crlf, read]
      rfl
    have matched := query.bind_crlf values
    simp only [render, read, read']
    generalize query.crlf.bind values = outcome at matched ⊢
    cases bound : query.bind values with
    | error error =>
        rw [bound] at matched
        cases matched with
        | error same => exact .error same
    | ok plan =>
        rw [bound] at matched
        cases matched with
        | ok same =>
            obtain rfl := same
            obtain ⟨last, drawn⟩ := Query.drawn_of_bind read bound
            have taken : ∀ binding ∈ plan.bindings, ∀ piece,
                (Supplied.value binding.value).HasRaw piece → '\n' ∉ piece :=
              fun binding member piece => Query.newline_not_mem_of_takes read inLine
                (Query.takes_of_bind bound binding member)
            simp only [Plan.renderAs]
            cases chosen : Placeholder.choose asked dialect with
            | error error => exact .error (Error.crlf_of_choose chosen query.body).symm
            | ok placeholder =>
                obtain ⟨rendering, rendered, _⟩ := Plan.exists_render drawn placeholder
                simp only [Plan.render_crlf drawn (Query.order_of_bind read bound) taken,
                  rendered]
                exact .ok rfl

/-- Both kinds of line ends in one text, after a declaration, in the code and in a quoted piece. -/
theorem lineEndings_alike_mixed :
    let text := "--? by: raw = #id# // order\r\n--? ids: [num]\n'@by\n'\r\n@ids\n@by".toList
    let values : Table Supplied := .ofPairs [("ids".toList, .list [.int 1, .int 2]),
      ("by".toList, .value (.scalar (.raw ['n', 'o'])))]
    values.RawInLine ∧ ∃ query rendering, Query.parse ['-', '-', '?'] false text = .ok query ∧
      Query.parse ['-', '-', '?'] false (Text.crlf text) = .ok query.crlf ∧
      render ['-', '-', '?'] text values ['?'] none = .ok rendering ∧
      rendering.sql = "'@by\n'\r\n?,?\nno".toList ∧
      render ['-', '-', '?'] (Text.crlf text) values ['?'] none = .ok rendering.crlf := by
  intro text values
  have inLine : values.RawInLine := by
    intro name given found piece raw
    rcases Table.get?_or_mem_of_setAll found with old | member
    · cases old
    · rcases List.mem_cons.mp member with same | member
      · obtain rfl := (Prod.mk.inj same).2
        cases raw with
        | list member => simp at member
      · obtain rfl := (Prod.mk.inj (List.mem_singleton.mp member)).2
        cases raw
        decide
  have sql : ((render ['-', '-', '?'] text values ['?'] none).map Rendering.sql).toOption =
      some "'@by\n'\r\n?,?\nno".toList := by decide +kernel
  have parses : (Query.parse ['-', '-', '?'] false text).toBool := by decide +kernel
  obtain ⟨same, matched⟩ := lineEndings_alike ['-', '-', '?'] text
  refine ⟨inLine, ?_⟩
  cases parsed : Query.parse ['-', '-', '?'] false text with
  | error error =>
      rw [parsed] at parses
      cases parses
  | ok query =>
      rw [parsed] at same
      have matched := matched query parsed values inLine ['?'] none
      cases rendered : render ['-', '-', '?'] text values ['?'] none with
      | error error =>
          rw [rendered] at sql
          cases sql
      | ok rendering =>
          rw [rendered] at sql matched
          refine ⟨query, rendering, rfl, same, rfl, Option.some.inj sql, ?_⟩
          generalize render ['-', '-', '?'] (Text.crlf text) values ['?'] none = outcome at matched
          cases matched with
          | ok same => rw [same]

end TypedQuery
