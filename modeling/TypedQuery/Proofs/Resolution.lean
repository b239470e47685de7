import TypedQuery.Proofs.Typing

/-!
# References are resolved one by one

Binding resolves each name once and keeps the value for later references. That makes no difference:
a value does not depend on the place of the reference that asks for it, so binding the references is
binding each of them on its own, up to the first that is at fault (`Query.bind_eq_mapM`).

What a reference is resolved to depends on the declaration of its name, on the value that is
supplied for it, and on nothing else. So two queries are bound in the same way when their references
are, one by one (`Query.bind_congr`).
-/

set_option autoImplicit false

namespace TypedQuery

/-! ## Lists of outcomes -/

section

variable {ε α β : Type}

theorem mapM_cons (f : α → Except ε β) (first : α) (later : List α) :
    (first :: later).mapM f =
      match f first with
      | .error fault => .error fault
      | .ok result => (later.mapM f).map (result :: ·) := by
  rw [List.mapM_cons]
  cases f first with
  | error fault => rfl
  | ok result => cases later.mapM f <;> rfl

/-- A list of outcomes succeeds with the results of all of them. -/
theorem mapM_eq_ok_iff {f : α → Except ε β} {list : List α} {results : List β} :
    list.mapM f = .ok results ↔ List.Forall₂ (fun a b => f a = .ok b) list results := by
  induction list generalizing results with
  | nil =>
      rw [List.forall₂_nil_left_iff]
      exact ⟨fun passed => (Except.ok.inj passed).symm, fun none => none ▸ rfl⟩
  | cons first later ih =>
      rw [mapM_cons, List.forall₂_cons_left_iff]
      cases here : f first with
      | error fault => simp
      | ok result =>
          simp only [map_eq_ok_iff, ih, Except.ok.injEq]
          constructor
          · rintro ⟨rest, below, rfl⟩
            exact ⟨result, rest, rfl, below, rfl⟩
          · rintro ⟨_, rest, rfl, below, rfl⟩
            exact ⟨rest, below, rfl⟩

/-- A list of outcomes fails with the first fault. -/
theorem mapM_eq_error_iff {f : α → Except ε β} {list : List α} {fault : ε} :
    list.mapM f = .error fault ↔ ∃ earlier a later, list = earlier ++ a :: later ∧
      (∀ b ∈ earlier, ∃ result, f b = .ok result) ∧ f a = .error fault := by
  induction list with
  | nil =>
      constructor
      · intro failed
        cases failed
      · rintro ⟨earlier, a, later, whole, _⟩
        cases earlier <;> cases whole
  | cons first rest ih =>
      rw [mapM_cons]
      cases here : f first with
      | error other =>
          simp only [Except.error.injEq]
          constructor
          · rintro rfl
            exact ⟨[], first, rest, rfl, List.forall_mem_nil _, here⟩
          · rintro ⟨earlier, a, later, whole, passed, failed⟩
            cases earlier with
            | nil =>
                obtain ⟨rfl, rfl⟩ := List.cons.inj whole
                exact Except.error.inj (here.symm.trans failed)
            | cons b earlier =>
                obtain ⟨rfl, _⟩ := List.cons.inj whole
                obtain ⟨result, there⟩ := passed first List.mem_cons_self
                rw [here] at there
                cases there
      | ok result =>
          simp only [map_eq_error_iff, ih]
          constructor
          · rintro ⟨earlier, a, later, rfl, passed, failed⟩
            exact ⟨first :: earlier, a, later, rfl,
              List.forall_mem_cons.mpr ⟨⟨result, here⟩, passed⟩, failed⟩
          · rintro ⟨earlier, a, later, whole, passed, failed⟩
            cases earlier with
            | nil =>
                obtain ⟨rfl, _⟩ := List.cons.inj whole
                rw [here] at failed
                cases failed
            | cons b earlier =>
                obtain ⟨_, rfl⟩ := List.cons.inj whole
                exact ⟨earlier, a, later, rfl, (List.forall_mem_cons.mp passed).2, failed⟩

/-- A list of outcomes fails with the fault of one of them. -/
theorem exists_of_mapM_error {f : α → Except ε β} {list : List α} {fault : ε}
    (failed : list.mapM f = .error fault) : ∃ a ∈ list, f a = .error fault := by
  obtain ⟨earlier, a, later, rfl, _, here⟩ := mapM_eq_error_iff.mp failed
  exact ⟨a, List.mem_append_right _ List.mem_cons_self, here⟩

/-- A list of outcomes succeeds only if each of them does. -/
theorem exists_of_mapM_ok {f : α → Except ε β} {list : List α} {results : List β}
    (passed : list.mapM f = .ok results) {a : α} (member : a ∈ list) : ∃ b, f a = .ok b := by
  obtain ⟨place, rfl⟩ := List.get_of_mem member
  have each := mapM_eq_ok_iff.mp passed
  exact ⟨_, each.get place.isLt (each.length_eq ▸ place.isLt)⟩

theorem mapM_congr {f g : α → Except ε β} {list : List α} (same : ∀ a ∈ list, f a = g a) :
    list.mapM f = list.mapM g := by
  induction list with
  | nil => rfl
  | cons first later ih =>
      obtain ⟨here, rest⟩ := List.forall_mem_cons.mp same
      rw [mapM_cons, mapM_cons, here, ih rest]

end

/-- Lists of outcomes that match one by one match as wholes. -/
theorem Matched.mapM {ε δ α β γ κ : Type} {E : ε → δ → Prop} {R : α → β → Prop} {S : γ → κ → Prop}
    {f : α → Except ε γ} {g : β → Except δ κ} {first : List α} {second : List β}
    (related : List.Forall₂ R first second) (step : ∀ a b, R a b → Matched E S (f a) (g b)) :
    Matched E (List.Forall₂ S) (first.mapM f) (second.mapM g) := by
  induction related with
  | nil => exact .ok .nil
  | @cons a b later later' here _ ih =>
      have first := step a b here
      rw [mapM_cons, mapM_cons]
      generalize f a = x at first
      generalize g b = y at first
      cases first with
      | error related => exact .error related
      | ok related => exact ih.map fun _ _ rest => .cons related rest

/-- A name is declared if it is the name of a declaration. -/
theorem Query.declaration?_eq_none_iff {query : Query} {name : Text} :
    query.declaration? name = none ↔ name ∉ query.names := by
  simp [declaration?, names]

theorem Query.mem_of_declaration? {query : Query} {name : Text} {declaration : Declaration}
    (declared : query.declaration? name = some declaration) :
    declaration ∈ query.declarations ∧ declaration.name = name :=
  ⟨List.mem_of_find?_eq_some declared, by simpa using List.find?_some declared⟩

namespace Plan

/-- A reference bound on its own. -/
def bindOne (query : Query) (values : Table Supplied) (reference : Reference) :
    Except Error Binding :=
  match query.declaration? reference.name with
  | none => .error (.binding ⟨.undefinedReference, reference.name, some reference.start⟩)
  | some declaration =>
      (resolve declaration values reference.start).map fun value => ⟨reference, value⟩

/-- The place of a reference does not decide what it is resolved to. -/
theorem resolve_eq_ok_congr {declaration : Declaration} {values : Table Supplied}
    {position : Nat} {value : Value} (outcome : resolve declaration values position = .ok value)
    (other : Nat) : resolve declaration values other = .ok value := by
  unfold resolve at outcome ⊢
  split at outcome
  · split at outcome
    · cases outcome
    · split at outcome
      · exact outcome
      · cases outcome
  · split at outcome
    · exact outcome
    · cases outcome

/-- A parameter is resolved by the value that is supplied for its name. -/
theorem resolve_congr {declaration : Declaration} {values values' : Table Supplied}
    (same : values.get? declaration.name = values'.get? declaration.name) (position : Nat) :
    resolve declaration values position = resolve declaration values' position := by
  rw [resolve, resolve, same]

/-- A parameter without a supplied value is resolved to its default. -/
theorem resolve_of_default {declaration : Declaration} {values : Table Supplied} {value : Value}
    (absent : values.get? declaration.name = none) (given : declaration.default = some value)
    (position : Nat) : resolve declaration values position = .ok value := by
  simp only [resolve, absent, given]

/-- A name that is resolved already is resolved to the same value again. -/
theorem Resolves.bindOne_eq {query : Query} {values : Table Supplied} {resolved : Table Value}
    (known : Resolves query values resolved) {reference : Reference} {value : Value}
    (old : resolved.get? reference.name = some value) :
    bindOne query values reference = .ok ⟨reference, value⟩ := by
  obtain ⟨declaration, position, declared, outcome⟩ := known _ _ old
  rw [bindOne, declared]
  simp only [resolve_eq_ok_congr outcome reference.start, Except.map]

/-- The table of resolved names makes no difference. -/
theorem bindAll_eq_mapM {query : Query} {values : Table Supplied} {resolved : Table Value}
    (known : Resolves query values resolved) (references : List Reference) :
    bindAll query values resolved references = references.mapM (bindOne query values) := by
  induction references generalizing resolved with
  | nil => rfl
  | cons reference later ih =>
      rw [mapM_cons, bindAll]
      cases declared : query.declaration? reference.name with
      | none => rw [bindOne, declared]
      | some declaration =>
          simp only
          cases old : resolved.get? reference.name with
          | some value => rw [known.bindOne_eq old, ih known]
          | none =>
              cases outcome : resolve declaration values reference.start with
              | error error => simp only [bindOne, declared, outcome, Except.map]
              | ok value =>
                  simp only [bindOne, declared, outcome, Except.map,
                    ih (known.set declared outcome)]

end Plan

/-- A query is bound by binding each reference on its own. -/
theorem Query.bind_eq_mapM (query : Query) (values : Table Supplied) :
    query.bind values =
      (query.references.mapM (Plan.bindOne query values)).map (Plan.mk query.body) := by
  rw [bind, Plan.bindAll_eq_mapM (Plan.resolves_empty query values)]

/-- Two queries with one body are bound in the same way if their references are. -/
theorem Query.bind_congr {query query' : Query} {values values' : Table Supplied}
    (body : query.body = query'.body) (references : query.references = query'.references)
    (same : ∀ reference ∈ query.references,
      Plan.bindOne query values reference = Plan.bindOne query' values' reference) :
    query.bind values = query'.bind values' := by
  rw [bind_eq_mapM, bind_eq_mapM, ← body, ← references, mapM_congr same]

end TypedQuery
