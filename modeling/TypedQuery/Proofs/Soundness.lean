import TypedQuery.Proofs.NamedFilling

/-!
# Plans are sound and render

A plan is sound for a query and supplied values if it has the body of the query, one binding for
each reference in its order, and in each binding a value of the declared type: the default where
no value is supplied, and one value for each name (`Plan.Sound`). Every plan that is bound is sound,
since its values come from one table, and each entry of that table is what a parameter was resolved
to.

The types are what rendering needs. The items of a raw array are raw pieces, so they can be put
together; the items of any other array are texts or numbers, so no raw piece is ever passed on as an
argument (`Value.base_of_mem_arguments`). So a plan that is bound renders with every kind of
placeholder, and passes on texts and numbers only (`Query.sound_of_bind`).
-/

set_option autoImplicit false

namespace TypedQuery

/-! ## Plans -/

/-- A plan that stands for a query with supplied values. -/
structure Plan.Sound (query : Query) (values : Table Supplied) (plan : Plan) : Prop where
  body : plan.body = query.body
  references : plan.bindings.map Binding.reference = query.references
  fits : ∀ binding ∈ plan.bindings, ∃ declaration,
    query.declaration? binding.reference.name = some declaration ∧
      binding.value.Fits declaration.type
  default : ∀ binding ∈ plan.bindings, values.get? binding.reference.name = none →
    ∃ declaration, query.declaration? binding.reference.name = some declaration ∧
      declaration.default = some binding.value
  same : ∀ first ∈ plan.bindings, ∀ second ∈ plan.bindings,
    first.reference.name = second.reference.name → first.value = second.value

namespace Plan

/-- A parameter without a supplied value is resolved to its default. -/
theorem default_of_resolve {declaration : Declaration} {values : Table Supplied} {position : Nat}
    {value : Value} (absent : values.get? declaration.name = none)
    (outcome : resolve declaration values position = .ok value) :
    declaration.default = some value := by
  unfold resolve at outcome
  rw [absent] at outcome
  simp only at outcome
  split at outcome
  · next given =>
      obtain rfl := Except.ok.inj outcome
      exact given
  · cases outcome

/-- A plan that is bound is sound. -/
theorem sound_of_bound {query : Query} (sound : query.Sound) {values : Table Supplied} {plan : Plan}
    (bound : query.bind values = .ok plan) : plan.Sound query values := by
  obtain ⟨body, references, last, resolves, fromLast⟩ := Query.bind_resolves bound
  refine ⟨body, references, ?_, ?_, ?_⟩
  · exact fun binding member => resolves.typed sound _ _ (fromLast binding member)
  · intro binding member absent
    obtain ⟨declaration, position, declared, outcome⟩ := resolves _ _ (fromLast binding member)
    have named := List.find?_some declared
    rw [← of_decide_eq_true named] at absent
    exact ⟨declaration, declared, default_of_resolve absent outcome⟩
  · intro first member second member' same
    have here := fromLast first member
    rw [same, fromLast second member'] at here
    exact (Option.some.inj here).symm

end Plan

/-! ## Arguments -/

/-- No raw piece is passed on as an argument: a value that fits its type has raw items only if it is
raw itself. -/
theorem Value.base_of_mem_arguments {value : Value} {type : ParamType} (fits : value.Fits type) :
    ∀ item ∈ value.arguments, item.base ≠ .raw := by
  intro item member
  match value with
  | .scalar (.raw _) | .array .raw _ => cases member
  | .scalar (.str _) | .scalar (.num _) =>
      rw [List.mem_singleton.mp member]
      exact BaseType.noConfusion
  | .array .str _ | .array .num _ =>
      rw [fits.2 item member]
      exact BaseType.noConfusion

/-- A rendering that passes on texts and numbers only. -/
structure Rendering.Plain (rendering : Rendering) : Prop where
  arguments : ∀ item ∈ rendering.arguments, item.base ≠ .raw
  named : ∀ key item, rendering.named.get? key = some item → item.base ≠ .raw

namespace Plan

/-- A plan whose values come from one table and fit their types is rendered with every kind of
placeholder. -/
theorem exists_render {plan : Plan} {values : Table Value}
    (drawn : Binding.DrawnFrom values plan.bindings) (placeholder : Placeholder) :
    ∃ rendering, plan.render placeholder = .ok rendering ∧ rendering.Plain := by
  have plain : ∀ item ∈ Binding.argumentsOf plan.bindings, item.base ≠ .raw := by
    intro item member
    obtain ⟨binding, inside, member⟩ := List.mem_flatMap.mp member
    obtain ⟨type, fits⟩ := (drawn binding inside).2
    exact Value.base_of_mem_arguments fits item member
  by_cases positional : placeholder = .named
  · subst positional
    refine ⟨_, (render_named drawn).1, fun _ member => ?_, fun key item found => ?_⟩
    · cases member
    · rcases Table.get?_or_mem_of_setAll found with old | member
      · cases old
      · exact plain item (List.of_mem_zip member).2
  · refine ⟨_, render_positional positional drawn, plain, fun key item found => ?_⟩
    cases found

end Plan

/-! ## Queries -/

/-- A query that is parsed is the one that is read, checked or not. -/
theorem Query.read_of_parse {marker text : Text} {strict : Bool} {query : Query}
    (parsed : Query.parse marker strict text = .ok query) : Query.read marker text = .ok query := by
  unfold Query.parse at parsed
  split at parsed
  · cases parsed
  · next found read =>
      split at parsed
      · unfold Query.check at parsed
        split at parsed
        · cases parsed
        · split at parsed
          · cases parsed
          · rw [read, parsed]
      · rw [read, parsed]

/-- **Binding is sound, and what is bound renders.** A plan that is bound for a query of a text has
the body of the query and a value of the declared type for each of its references, which is the
default where none is supplied, and the same for references to one name. It is rendered with every
kind of placeholder, asked for by its text or by a dialect, and passes on texts and numbers only. -/
theorem Query.sound_of_bind {marker text : Text} {strict : Bool} {query : Query}
    (parsed : Query.parse marker strict text = .ok query) {values : Table Supplied} {plan : Plan}
    (bound : query.bind values = .ok plan) :
    plan.Sound query values ∧
      (∀ placeholder : Placeholder, ∃ rendering,
        plan.renderAs placeholder.text none = .ok rendering ∧ rendering.Plain) ∧
      ∀ dialect : Dialect, ∃ rendering,
        plan.renderAs Placeholder.question.text (some dialect) = .ok rendering ∧
          rendering.Plain := by
  have read := Query.read_of_parse parsed
  obtain ⟨last, drawn⟩ := Query.drawn_of_bind read bound
  refine ⟨Plan.sound_of_bound (Query.sound_of_read read) bound, fun placeholder => ?_,
    fun dialect => ?_⟩
  · have chosen : Placeholder.choose placeholder.text none = .ok placeholder := by
      cases placeholder <;> rfl
    rw [Plan.renderAs, chosen]
    exact Plan.exists_render drawn placeholder
  · have chosen : Placeholder.choose Placeholder.question.text (some dialect) =
        .ok dialect.placeholder := rfl
    rw [Plan.renderAs, chosen]
    exact Plan.exists_render drawn dialect.placeholder

/-- A list for an array that is referred to twice, beside the default of a raw piece. -/
theorem Query.sound_of_bind_mixed :
    let text := "--? ids: [num]\n--? by: raw = #id#\nin (@ids) order by @by, @ids".toList
    let values : Table Supplied := .ofPairs [("ids".toList, .list [.int 1, .float .nan])]
    ∃ query plan, Query.parse ['-', '-', '?'] true text = .ok query ∧
      query.bind values = .ok plan ∧ plan.Sound query values ∧
      (∀ placeholder : Placeholder, ∃ rendering,
        plan.renderAs placeholder.text none = .ok rendering ∧ rendering.Plain) ∧
      ∀ dialect : Dialect, ∃ rendering,
        plan.renderAs Placeholder.question.text (some dialect) = .ok rendering ∧
          rendering.Plain := by
  intro text values
  have succeeds : ((Query.parse ['-', '-', '?'] true text).bind (Query.bind · values)).toBool := by
    decide +kernel
  cases parsed : Query.parse ['-', '-', '?'] true text with
  | error error =>
      rw [parsed] at succeeds
      cases succeeds
  | ok query =>
      rw [parsed, Except.bind] at succeeds
      cases bound : query.bind values with
      | error error =>
          rw [bound] at succeeds
          cases succeeds
      | ok plan => exact ⟨query, plan, rfl, bound, Query.sound_of_bind parsed bound⟩

end TypedQuery
