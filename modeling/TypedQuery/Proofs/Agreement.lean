import Mathlib.Data.List.Forall2
import TypedQuery.Table

/-!
# Two runs side by side

A statement about two runs of one function compares their outcomes. Outcomes agree along a
relation if both runs fail with the same fault, or both succeed with related results
(`Agree`); where faults may be related without being the same, outcomes match (`Matched`).
Tables agree along a relation if they have the same names with related values
(`Table.Related`).

The lemmas here carry agreement through the ways in which outcomes are built: changing a
result, converting the items of a list one by one, and setting a name of a table.
-/

set_option autoImplicit false

namespace TypedQuery

/-! ## Outcomes -/

/-- A changed result comes from a result. -/
theorem map_eq_ok_iff {ε α β : Type} {f : α → β} {outcome : Except ε α} {result : β} :
    outcome.map f = .ok result ↔ ∃ first, outcome = .ok first ∧ f first = result := by
  cases outcome with
  | error fault =>
      constructor
      · intro same
        cases same
      · rintro ⟨_, same, _⟩
        cases same
  | ok first =>
      constructor
      · intro same
        exact ⟨first, rfl, Except.ok.inj same⟩
      · rintro ⟨_, same, rfl⟩
        rw [Except.ok.inj same]
        rfl

/-- A changed outcome fails with the same fault. -/
theorem map_eq_error_iff {ε α β : Type} {f : α → β} {outcome : Except ε α} {fault : ε} :
    outcome.map f = .error fault ↔ outcome = .error fault := by
  cases outcome with
  | error other => simp [Except.map]
  | ok first => simp [Except.map]

/-- Two steps that succeed one after the other have results. -/
theorem exists_of_bind {ε α β : Type} {outcome : Except ε α} {next : α → Except ε β}
    (succeeds : (outcome.bind next).toBool = true) :
    ∃ first result, outcome = .ok first ∧ next first = .ok result := by
  cases outcome with
  | error fault => cases succeeds
  | ok first =>
      rw [Except.bind] at succeeds
      cases below : next first with
      | error fault =>
          rw [below] at succeeds
          cases succeeds
      | ok result => exact ⟨first, result, rfl, below⟩

/-- Two outcomes agree along a relation: the same fault on both sides, or related results. -/
inductive Agree {ε α β : Type} (R : α → β → Prop) : Except ε α → Except ε β → Prop where
  | ok {first : α} {second : β} (related : R first second) : Agree R (.ok first) (.ok second)
  | error (fault : ε) : Agree R (.error fault) (.error fault)

namespace Agree

variable {ε α β γ δ : Type} {R : α → β → Prop} {S : γ → δ → Prop}

/-- Results that are changed along related functions still agree. -/
theorem map {f : α → γ} {g : β → δ} {first : Except ε α} {second : Except ε β}
    (agree : Agree R first second) (preserves : ∀ a b, R a b → S (f a) (g b)) :
    Agree S (first.map f) (second.map g) := by
  cases agree with
  | ok related => exact .ok (preserves _ _ related)
  | error fault => exact .error fault

end Agree

/-- Two outcomes match along two relations: related faults on both sides, or related results. -/
inductive Matched {ε δ α β : Type} (E : ε → δ → Prop) (R : α → β → Prop) :
    Except ε α → Except δ β → Prop where
  | ok {first : α} {second : β} (related : R first second) : Matched E R (.ok first) (.ok second)
  | error {first : ε} {second : δ} (related : E first second) :
      Matched E R (.error first) (.error second)

namespace Matched

variable {ε δ α β γ κ : Type} {E : ε → δ → Prop}

/-- Results that are changed along related functions still match. -/
theorem map {R : α → β → Prop} {S : γ → κ → Prop} {f : α → γ} {g : β → κ} {first : Except ε α}
    {second : Except δ β} (matched : Matched E R first second)
    (preserves : ∀ a b, R a b → S (f a) (g b)) : Matched E S (first.map f) (second.map g) := by
  cases matched with
  | ok related => exact .ok (preserves _ _ related)
  | error related => exact .error related

/-- How results are related may depend on where they come from. -/
theorem imp {R S : α → β → Prop} {first : Except ε α} {second : Except δ β}
    (matched : Matched E R first second)
    (implies : ∀ a b, first = .ok a → second = .ok b → R a b → S a b) :
    Matched E S first second := by
  cases matched with
  | ok related => exact .ok (implies _ _ rfl rfl related)
  | error related => exact .error related

end Matched

/-! ## Lists of optional results -/

/-- Related lists are converted to related lists, or both conversions fail. -/
theorem rel_mapM {α β γ δ : Type} {R : α → β → Prop} {S : γ → δ → Prop} {f : α → Option γ}
    {g : β → Option δ} {first : List α} {second : List β} (related : List.Forall₂ R first second)
    (preserves : ∀ a b, R a b → Option.Rel S (f a) (g b)) :
    Option.Rel (List.Forall₂ S) (first.mapM f) (second.mapM g) := by
  induction related with
  | nil => exact .some .nil
  | @cons a b first second head _ ih =>
      have heads := preserves a b head
      simp only [List.mapM_cons]
      generalize f a = x at heads
      generalize g b = y at heads
      generalize first.mapM f = xs at ih
      generalize second.mapM g = ys at ih
      cases heads with
      | none => exact .none
      | some here =>
          cases ih with
          | none => exact .none
          | some there => exact .some (.cons here there)

/-! ## Tables -/

namespace Table

variable {α β : Type} {R : α → β → Prop}

/-- Two tables have the same names, with related values. -/
def Related (R : α → β → Prop) (first : Table α) (second : Table β) : Prop :=
  ∀ name, Option.Rel R (first.get? name) (second.get? name)

theorem related_empty : Related R (empty : Table α) (empty : Table β) := fun _ => .none

/-- Setting a name to related values keeps tables related. -/
theorem Related.set {first : Table α} {second : Table β} (related : Related R first second)
    (name : Text) {a : α} {b : β} (values : R a b) :
    Related R (first.set name a) (second.set name b) := by
  intro other
  rw [get?_set, get?_set]
  split
  · exact .some values
  · exact related other

/-- Tables of pairs with the same names and related values are related. -/
theorem related_ofPairs {first : List (Text × α)} {second : List (Text × β)}
    (pairs : List.Forall₂ (fun p q => p.1 = q.1 ∧ R p.2 q.2) first second) :
    Related R (ofPairs first) (ofPairs second) := by
  have run : ∀ (table : Table α) (table' : Table β), Related R table table' →
      Related R (table.setAll first) (table'.setAll second) := by
    induction pairs with
    | nil => exact fun _ _ related => related
    | cons head _ ih =>
        intro table table' related
        rw [setAll_cons, setAll_cons, head.1]
        exact ih _ _ (related.set _ head.2)
  exact run empty empty related_empty

/-- Which names a table of pairs has, and in which order, is decided by the names of the
pairs. -/
theorem names_setAll_congr {first : List (Text × α)} {second : List (Text × β)}
    (same : first.map Prod.fst = second.map Prod.fst) {table : Table α} {table' : Table β}
    (names : table.names = table'.names) :
    (table.setAll first).names = (table'.setAll second).names := by
  induction first generalizing second table table' with
  | nil =>
      cases second with
      | nil => exact names
      | cons => cases same
  | cons p first ih =>
      cases second with
      | nil => cases same
      | cons q second =>
          obtain ⟨head, tail⟩ := List.cons_eq_cons.mp same
          rw [setAll_cons, setAll_cons]
          refine ih tail ?_
          rw [names_set, names_set, head, names]

end Table
end TypedQuery
