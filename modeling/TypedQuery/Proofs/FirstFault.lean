import TypedQuery.Proofs.Resolution

/-!
# The first reference at fault decides

A parameter takes a value or it is refused one, and which of the two holds is decided by its
declaration and by the value that is supplied for its name (`Declaration.Takes`,
`Declaration.Refuses`). A reference is bound to what its parameter takes; it is at fault if its name
is not declared or its parameter is refused a value, and the error has its offset.

A query is bound by binding each reference on its own, in the order of the body. So it is bound
exactly if every reference takes a value, and otherwise the error is that of the first one that does
not, whatever is wrong with later ones (`Query.binds_separately`). Of the supplied values only those
under names that are declared and referred to make a difference.
-/

set_option autoImplicit false

namespace TypedQuery

/-! ## One parameter -/

namespace Declaration

/-- The value that a parameter takes: its default where none is supplied, and otherwise what the
supplied data passes for once it is converted. -/
inductive Takes (declaration : Declaration) (values : Table Supplied) : Value → Prop
  | default {value : Value} (absent : values.get? declaration.name = none)
      (default : declaration.default = some value) : Takes declaration values value
  | supplied {given converted : Supplied} {value : Value}
      (supplied : values.get? declaration.name = some given)
      (converts : given.convert? declaration.type = some converted)
      (conforms : Plan.Conforms declaration.type converted value) : Takes declaration values value

/-- The error of a parameter that is refused a value for a reference at an offset. -/
inductive Refuses (declaration : Declaration) (values : Table Supplied) (position : Nat) :
    Error → Prop
  /-- There is neither a value nor a default. -/
  | missing (absent : values.get? declaration.name = none) (required : declaration.default = none) :
      Refuses declaration values position
        (.binding ⟨.missing, declaration.name, some position⟩)
  /-- Conversion meets an integer without a double. -/
  | tooLarge {given : Supplied} (supplied : values.get? declaration.name = some given)
      (large : given.TooLarge) : Refuses declaration values position .integerTooLarge
  /-- What the data is converted to does not have the declared type. -/
  | misfit {given converted : Supplied} {fault : BindingFault}
      (supplied : values.get? declaration.name = some given)
      (converts : given.convert? declaration.type = some converted)
      (misfits : Plan.Misfits declaration.type converted fault) :
      Refuses declaration values position (.binding ⟨fault, declaration.name, some position⟩)

end Declaration

namespace Plan

variable {declaration : Declaration} {values : Table Supplied} {position : Nat}

/-- A parameter is resolved to the value that it takes. -/
theorem resolve_eq_ok_iff {value : Value} :
    resolve declaration values position = .ok value ↔ declaration.Takes values value := by
  constructor
  · intro resolved
    unfold resolve at resolved
    split at resolved
    · next given supplied =>
        split at resolved
        · cases resolved
        · next converted converts =>
            split at resolved
            · next found passed =>
                obtain rfl := Except.ok.inj resolved
                exact .supplied supplied converts (conform_eq_ok_iff.mp passed)
            · cases resolved
    · next absent =>
        split at resolved
        · next found default =>
            obtain rfl := Except.ok.inj resolved
            exact .default absent default
        · cases resolved
  · intro takes
    cases takes with
    | default absent default => simp only [resolve, absent, default]
    | supplied supplied converts conforms =>
        simp only [resolve, supplied, converts, conform_eq_ok_iff.mpr conforms]

/-- A parameter that is not resolved is refused a value, with the error. -/
theorem resolve_eq_error_iff {error : Error} :
    resolve declaration values position = .error error ↔
      declaration.Refuses values position error := by
  constructor
  · intro failed
    unfold resolve at failed
    split at failed
    · next given supplied =>
        split at failed
        · next large =>
            obtain rfl := Except.error.inj failed
            exact .tooLarge supplied (Supplied.convert?_eq_none_iff.mp large)
        · next converted converts =>
            split at failed
            · cases failed
            · next fault refused =>
                obtain rfl := Except.error.inj failed
                exact .misfit supplied converts (conform_eq_error_iff.mp refused)
    · next absent =>
        split at failed
        · cases failed
        · next required =>
            obtain rfl := Except.error.inj failed
            exact .missing absent required
  · intro refuses
    cases refuses with
    | missing absent required => simp only [resolve, absent, required]
    | tooLarge supplied large =>
        simp only [resolve, supplied, Supplied.convert?_eq_none_iff.mpr large]
    | misfit supplied converts misfits =>
        simp only [resolve, supplied, converts, conform_eq_error_iff.mpr misfits]

end Plan

/-! ## One reference -/

namespace Query

/-- The value that a reference takes is that of the parameter of its name. -/
def Takes (query : Query) (values : Table Supplied) (reference : Reference)
    (value : Value) : Prop :=
  ∃ declaration, query.declaration? reference.name = some declaration ∧
    declaration.Takes values value

/-- The error of a reference at fault: its name is not declared, or the parameter of that name is
refused a value for the offset at which the reference starts. -/
inductive Refuses (query : Query) (values : Table Supplied) (reference : Reference) : Error → Prop
  | undeclared (absent : reference.name ∉ query.names) :
      Refuses query values reference
        (.binding ⟨.undefinedReference, reference.name, some reference.start⟩)
  | declared {declaration : Declaration} {error : Error}
      (declared : query.declaration? reference.name = some declaration)
      (refuses : declaration.Refuses values reference.start error) :
      Refuses query values reference error

variable {query : Query} {values : Table Supplied} {reference : Reference}

/-- A reference is bound on its own to the value that it takes. -/
theorem bindOne_eq_ok_iff {binding : Binding} :
    Plan.bindOne query values reference = .ok binding ↔
      binding.reference = reference ∧ query.Takes values reference binding.value := by
  unfold Plan.bindOne Takes
  cases declared : query.declaration? reference.name with
  | none => simp
  | some declaration =>
      simp only [map_eq_ok_iff, Plan.resolve_eq_ok_iff, Option.some.injEq, exists_eq_left']
      constructor
      · rintro ⟨value, takes, rfl⟩
        exact ⟨rfl, takes⟩
      · rintro ⟨rfl, takes⟩
        exact ⟨_, takes, rfl⟩

/-- A reference that is not bound is at fault, with the error. -/
theorem bindOne_eq_error_iff {error : Error} :
    Plan.bindOne query values reference = .error error ↔ query.Refuses values reference error := by
  cases declared : query.declaration? reference.name with
  | none =>
      have absent := declaration?_eq_none_iff.mp declared
      simp only [Plan.bindOne, declared, Except.error.injEq]
      constructor
      · rintro rfl
        exact .undeclared absent
      · rintro (_ | ⟨found, _⟩)
        · rfl
        · cases declared.symm.trans found
  | some declaration =>
      simp only [Plan.bindOne, declared, map_eq_error_iff, Plan.resolve_eq_error_iff]
      constructor
      · exact .declared declared
      · rintro (absent | ⟨found, refuses⟩)
        · cases declared.symm.trans (declaration?_eq_none_iff.mpr absent)
        · obtain rfl := Option.some.inj (declared.symm.trans found)
          exact refuses

/-! ## All references -/

/-- A query is bound with supplied values as if each reference were bound on its own. -/
structure BindsSeparately (query : Query) (values : Table Supplied) : Prop where
  /-- No reference depends on an earlier one. -/
  separate : query.bind values =
    (query.references.mapM (Plan.bindOne query values)).map (Plan.mk query.body)
  /-- A plan has the value that each reference takes. -/
  plan : ∀ plan, query.bind values = .ok plan ↔
    plan.body = query.body ∧ List.Forall₂ (fun reference binding =>
      binding.reference = reference ∧ query.Takes values reference binding.value)
        query.references plan.bindings
  /-- The error is that of the first reference that takes no value. -/
  error : ∀ error, query.bind values = .error error ↔
    ∃ earlier reference later, query.references = earlier ++ reference :: later ∧
      (∀ before ∈ earlier, ∃ value, query.Takes values before value) ∧
        query.Refuses values reference error
  /-- Only values under names that are declared and referred to make a difference. -/
  ignored : ∀ others : Table Supplied,
    (∀ reference ∈ query.references, reference.name ∈ query.names →
      others.get? reference.name = values.get? reference.name) →
    query.bind others = query.bind values

theorem bind_eq_ok_iff {plan : Plan} :
    query.bind values = .ok plan ↔
      plan.body = query.body ∧ List.Forall₂ (fun reference binding =>
        binding.reference = reference ∧ query.Takes values reference binding.value)
          query.references plan.bindings := by
  simp only [bind_eq_mapM, map_eq_ok_iff, mapM_eq_ok_iff, bindOne_eq_ok_iff]
  constructor
  · rintro ⟨bindings, each, rfl⟩
    exact ⟨rfl, each⟩
  · rintro ⟨body, each⟩
    exact ⟨plan.bindings, each, by rw [← body]⟩

/-- Each binding of a plan has the value that its reference takes. -/
theorem takes_of_bind {plan : Plan} (bound : query.bind values = .ok plan) :
    ∀ binding ∈ plan.bindings, query.Takes values binding.reference binding.value := by
  have each := (bind_eq_ok_iff.mp bound).2
  intro binding member
  obtain ⟨place, rfl⟩ := List.get_of_mem member
  obtain ⟨same, takes⟩ := each.get (place.isLt.trans_eq each.length_eq.symm) place.isLt
  rwa [← same] at takes

theorem bind_eq_error_iff {error : Error} :
    query.bind values = .error error ↔
      ∃ earlier reference later, query.references = earlier ++ reference :: later ∧
        (∀ before ∈ earlier, ∃ value, query.Takes values before value) ∧
          query.Refuses values reference error := by
  have passes (reference : Reference) :
      (∃ binding, Plan.bindOne query values reference = .ok binding) ↔
        ∃ value, query.Takes values reference value := by
    simp only [bindOne_eq_ok_iff]
    constructor
    · rintro ⟨binding, _, takes⟩
      exact ⟨binding.value, takes⟩
    · rintro ⟨value, takes⟩
      exact ⟨⟨reference, value⟩, rfl, takes⟩
  simp only [bind_eq_mapM, map_eq_error_iff, mapM_eq_error_iff, passes, bindOne_eq_error_iff]

/-- A reference is bound by the value that is supplied for its name, if the name is declared. -/
theorem bindOne_congr {values others : Table Supplied}
    (same : reference.name ∈ query.names →
      others.get? reference.name = values.get? reference.name) :
    Plan.bindOne query others reference = Plan.bindOne query values reference := by
  cases declared : query.declaration? reference.name with
  | none => simp only [Plan.bindOne, declared]
  | some declaration =>
      obtain ⟨member, named⟩ := mem_of_declaration? declared
      rw [← named] at same
      have inside : declaration.name ∈ query.names := List.mem_map_of_mem member
      simp only [Plan.bindOne, declared, Plan.resolve_congr (same inside)]

/-- **A query is bound reference by reference, and the first fault decides the error.** -/
theorem binds_separately (query : Query) (values : Table Supplied) :
    query.BindsSeparately values where
  separate := bind_eq_mapM query values
  plan _ := bind_eq_ok_iff
  error _ := bind_eq_error_iff
  ignored _ same := bind_congr rfl rfl fun reference member => bindOne_congr (same reference member)

end Query
end TypedQuery
